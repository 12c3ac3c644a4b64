import LineScript.Proofs.Atomicity
import LineScript.Proofs.Meaning

/-!
Sinks that fill up. A sink that takes a few bytes at a time, and only so many in all, takes the same
bytes as one without bounds until they no longer fit, so a run on it is the same run up to the call
whose bytes do not fit and fails there, with the front part of the output that fits.
-/

namespace LineScript

/-- What a write reports when a sink is full. -/
def Refusal.reason : Refusal → String
  | .noSpace => "no space left"
  | .nothingTaken => "failed to write whole buffer"

namespace Sink

theorem accept_nil (sink : Sink) : sink.accept [] = sink := by
  simp [accept]

theorem toList_accept (sink : Sink) (bytes : Bytes) :
    (sink.accept bytes).written.toList = sink.written.toList ++ bytes := by
  rw [accept, Array.appendList_eq_append, Array.toList_appendList]

theorem accept_eq (sink : Sink) (bytes : Bytes) :
    sink.accept bytes = { sink with written := (sink.written.toList ++ bytes).toArray } := by
  rw [← toList_accept]
  rfl

theorem accept_accept (sink : Sink) (first second : Bytes) :
    (sink.accept first).accept second = sink.accept (first ++ second) := by
  rw [accept_eq, toList_accept, accept_eq sink (first ++ second), List.append_assoc]
  rfl

theorem size_accept (sink : Sink) (bytes : Bytes) :
    (sink.accept bytes).written.size = sink.written.size + bytes.length := by
  rw [← Array.length_toList, toList_accept, List.length_append, Array.length_toList]

/-- Every call that takes bytes at all takes at least one. -/
def Steady (sink : Sink) : Prop :=
  ∀ most ∈ sink.chunk, 0 < most

theorem Steady.accept {sink : Sink} (steady : sink.Steady) (bytes : Bytes) :
    (sink.accept bytes).Steady := steady

theorem capacity_accept (sink : Sink) (bytes : Bytes) :
    (sink.accept bytes).capacity = sink.capacity := rfl

/-- A sink with room takes some of the bytes that are offered, and not more than it has room for. -/
theorem offer_of_room {sink : Sink} {count : Nat} (steady : sink.Steady) (positive : 0 < count)
    (room : ∀ limit ∈ sink.capacity, sink.written.size < limit) :
    ∃ taken, taken < count ∧ (∀ limit ∈ sink.capacity, sink.written.size + taken < limit) ∧
      sink.offer count = .ok (taken + 1) := by
  obtain ⟨written, capacity, most, refusal⟩ := sink
  have fitting : ∃ taken, taken < count ∧ (most.map (min count)).getD count = taken + 1 := by
    cases most with
    | none => exact ⟨count - 1, by omega, by simp; omega⟩
    | some most =>
        have positive : 0 < most := steady most rfl
        exact ⟨min count most - 1, by omega, by simp; omega⟩
  obtain ⟨taken, below, fitting⟩ := fitting
  simp only [offer, fitting]
  cases capacity with
  | none => exact ⟨taken, below, nofun, rfl⟩
  | some limit =>
      have room : written.size < limit := room limit rfl
      have unfilled : ¬ (limit - written.size = 0 ∧ refusal = .noSpace) := by omega
      refine ⟨min taken (limit - written.size - 1), by omega, fun other same => ?_, ?_⟩
      · cases same
        omega
      · dsimp only
        rw [if_neg unfilled]
        congr 1
        omega

/-- What a sink answers when it is full. -/
theorem offer_of_full {sink : Sink} (full : sink.capacity = some sink.written.size) (count : Nat) :
    sink.offer count =
      match sink.refusal with
      | .noSpace => .error "no space left"
      | .nothingTaken => .ok 0 := by
  simp only [offer, full, Nat.sub_self, Nat.min_zero, true_and]
  cases sink.refusal with
  | noSpace => rfl
  | nothingTaken => rfl

theorem writeAll_nil (sink : Sink) : sink.writeAll [] = (.ok (), sink) := by
  rw [writeAll, if_pos List.length_nil]

theorem writeAll_of_offer {sink : Sink} {bytes : Bytes} (nonempty : bytes.length ≠ 0) {taken : Nat}
    (offered : sink.offer bytes.length = .ok (taken + 1)) :
    sink.writeAll bytes =
      (sink.accept (bytes.take (taken + 1))).writeAll (bytes.drop (taken + 1)) := by
  rw [writeAll, if_neg nonempty, offered]

theorem writeAll_of_full {sink : Sink} {bytes : Bytes} (nonempty : bytes.length ≠ 0)
    (full : sink.capacity = some sink.written.size) :
    sink.writeAll bytes = (.error sink.refusal.reason, sink) := by
  rw [writeAll, if_neg nonempty, offer_of_full full]
  cases sink.refusal with
  | noSpace => rfl
  | nothingTaken => rfl

/-- A sink that has room for all the bytes has taken them when the calls are over. -/
theorem writeAll_of_room {sink : Sink} {bytes : Bytes} (steady : sink.Steady)
    (room : ∀ limit ∈ sink.capacity, sink.written.size + bytes.length ≤ limit) :
    sink.writeAll bytes = (.ok (), sink.accept bytes) := by
  induction size : bytes.length using Nat.strongRecOn generalizing sink bytes with
  | ind size ih =>
      subst size
      by_cases nonempty : bytes.length = 0
      · rw [List.length_eq_zero_iff.mp nonempty, writeAll_nil, accept_nil]
      · have unfilled (limit : Nat) (bounded : limit ∈ sink.capacity) :
            sink.written.size < limit := by
          have enough := room limit bounded
          omega
        obtain ⟨taken, below, _, offered⟩ :=
          offer_of_room steady (Nat.pos_of_ne_zero nonempty) unfilled
        rw [writeAll_of_offer nonempty offered,
          ih (bytes.drop (taken + 1)).length ?_ (steady.accept _) ?_ rfl, accept_accept,
          List.take_append_drop]
        · rw [List.length_drop]
          omega
        · intro limit bounded
          have enough := room limit bounded
          rw [size_accept, List.length_take, List.length_drop]
          omega

/-- A sink without room for all the bytes has taken those that fit when a call fails. -/
theorem writeAll_of_overflow {sink : Sink} {bytes : Bytes} {limit : Nat} (steady : sink.Steady)
    (capacity : sink.capacity = some limit) (fitted : sink.written.size ≤ limit)
    (exceeds : limit < sink.written.size + bytes.length) :
    sink.writeAll bytes =
      (.error sink.refusal.reason, sink.accept (bytes.take (limit - sink.written.size))) := by
  induction size : bytes.length using Nat.strongRecOn generalizing sink bytes with
  | ind size ih =>
      subst size
      have nonempty : bytes.length ≠ 0 := by omega
      by_cases full : sink.written.size = limit
      · subst full
        rw [writeAll_of_full nonempty capacity, Nat.sub_self, List.take_zero, accept_nil]
      · have unfilled (other : Nat) (bounded : other ∈ sink.capacity) :
            sink.written.size < other := by
          cases capacity.symm.trans bounded
          omega
        obtain ⟨taken, below, within, offered⟩ :=
          offer_of_room steady (Nat.pos_of_ne_zero nonempty) unfilled
        have fits := within limit capacity
        have size : (sink.accept (bytes.take (taken + 1))).written.size =
            sink.written.size + (taken + 1) := by
          rw [size_accept, List.length_take, Nat.min_eq_left below]
        rw [writeAll_of_offer nonempty offered,
          ih (bytes.drop (taken + 1)).length ?_ (steady.accept _)
            ((sink.capacity_accept _).trans capacity) ?_ ?_ rfl, accept_accept, size]
        · have front : bytes.take (taken + 1) ++
              (bytes.drop (taken + 1)).take (limit - (sink.written.size + (taken + 1))) =
              bytes.take (limit - sink.written.size) := by
            rw [← List.take_add]
            congr 1
            omega
          rw [front]
          rfl
        · rw [List.length_drop]
          omega
        · omega
        · rw [size, List.length_drop]
          omega

/-- A sink that accepts everything, in as many calls as it takes. -/
structure Generous (sink : Sink) : Prop where
  unbounded : sink.capacity = none
  steady : sink.Steady

/-- What a bounded sink takes, of one call and in all, and what it answers when it is full. -/
structure Bounds where
  chunk : Nat
  limit : Nat
  refusal : Refusal
  positive : 0 < chunk

def limited (sink : Sink) (bounds : Bounds) : Sink :=
  { sink with capacity := some bounds.limit, chunk := some bounds.chunk, refusal := bounds.refusal }

theorem Generous.writeAll {sink : Sink} (generous : sink.Generous) (bytes : Bytes) :
    sink.writeAll bytes = (.ok (), sink.accept bytes) := by
  refine writeAll_of_room generous.steady fun limit bounded => ?_
  cases generous.unbounded.symm.trans bounded

theorem steady_limited (sink : Sink) (bounds : Bounds) : (sink.limited bounds).Steady := by
  intro most same
  cases same
  exact bounds.positive

theorem writeAll_limited {sink : Sink} {bounds : Bounds} {bytes : Bytes}
    (room : sink.written.size + bytes.length ≤ bounds.limit) :
    (sink.limited bounds).writeAll bytes = (.ok (), (sink.accept bytes).limited bounds) := by
  refine writeAll_of_room (sink.steady_limited bounds) fun limit same => ?_
  cases same
  exact room

end Sink

namespace World

variable {φ : Type}

/-- The same world with bounds on its output. -/
def limited (world : World φ) (bounds : Sink.Bounds) : World φ :=
  { world with output := world.output.limited bounds }

/-- The same world with other output. -/
def showing (world : World φ) (bytes : Bytes) : World φ :=
  { world with output := { world.output with written := bytes.toArray } }

theorem flush_limited (world : World φ) (bounds : Sink.Bounds) :
    (world.limited bounds).flush = (world.flush.1, world.flush.2.limited bounds) := by
  by_cases fails : world.flushAttempts + 1 ∈ world.failingFlushes
  · have plain : world.flush = (.error "flush failed", _) := if_pos fails
    rw [plain]
    exact if_pos fails
  · have plain : world.flush = (.ok (), _) := if_neg fails
    rw [plain]
    exact if_neg fails

variable [FileStore φ] {world : World φ} {bounds : Sink.Bounds}

theorem answer_write (generous : world.output.Generous) (bytes : Bytes) :
    Host.answer (.write bytes) world =
      (.ok (), { world with output := world.output.accept bytes }) := by
  simp only [Host.answer, answer, generous.writeAll]

theorem generous_answer (generous : world.output.Generous) (request : Request) :
    (Host.answer request world).2.output.Generous := by
  cases request with
  | write bytes =>
      rw [answer_write generous]
      exact ⟨generous.unbounded, generous.steady⟩
  | readByte | readFile _ => exact generous
  | flush | writeFile _ _ =>
      simp only [Host.answer, answer, flush]
      split <;> exact generous

/-- A bounded world takes the front part that fits of a write that does not. -/
theorem answer_write_overflow {bytes : Bytes} (fits : world.output.written.size ≤ bounds.limit)
    (exceeds : bounds.limit < world.output.written.size + bytes.length) :
    Host.answer (.write bytes) (world.limited bounds) =
      (.error bounds.refusal.reason, (world.limited bounds).showing
        ((world.output.written.toList ++ bytes).take bounds.limit)) := by
  have stopped := Sink.writeAll_of_overflow (world.output.steady_limited bounds) rfl fits exceeds
  have front : (world.output.written.toList ++ bytes).take bounds.limit =
      world.output.written.toList ++ bytes.take (bounds.limit - world.output.written.size) := by
    rw [List.take_append, Array.length_toList, List.take_of_length_le (by simpa using fits)]
  rw [front]
  simp only [Host.answer, answer]
  rw [limited, stopped, Sink.accept_eq]
  rfl

/-- A bounded world answers as the world without bounds does while its output fits. -/
theorem answer_limited (generous : world.output.Generous) (request : Request)
    (fits : (Host.answer request world).2.output.written.size ≤ bounds.limit) :
    Host.answer request (world.limited bounds) =
      ((Host.answer request world).1, (Host.answer request world).2.limited bounds) := by
  cases request with
  | write bytes =>
      rw [answer_write generous] at fits ⊢
      rw [Sink.size_accept] at fits
      simp only [Host.answer, answer, limited, Sink.writeAll_limited fits]
  | readByte | readFile _ => rfl
  | flush => exact flush_limited world bounds
  | writeFile path bytes =>
      simp only [Host.answer, answer, limited]
      split <;> rfl

theorem size_run_le {α : Type} (interaction : Interaction α) (world : World φ) :
    world.output.written.size ≤ (interaction.run world).2.output.written.size := by
  have grown := (ledger.written_run interaction world).length_le
  simpa only [ledger, Array.length_toList] using grown

end World

namespace Interaction

variable {φ α : Type} [FileStore φ]

theorem generous_run (interaction : Interaction α) {world : World φ}
    (generous : world.output.Generous) : (interaction.run world).2.output.Generous := by
  induction interaction generalizing world with
  | done value => exact generous
  | ask request resume ih => exact ih _ (World.generous_answer generous request)

theorem run_limited (interaction : Interaction α) {world : World φ} {bounds : Sink.Bounds}
    (generous : world.output.Generous)
    (fits : (interaction.run world).2.output.written.size ≤ bounds.limit) :
    interaction.run (world.limited bounds) =
      ((interaction.run world).1, (interaction.run world).2.limited bounds) := by
  induction interaction generalizing world with
  | done value => rfl
  | ask request resume ih =>
      -- Output only grows, so what is written by the first answer fits as well.
      have between := World.size_run_le (resume (Host.answer request world).1)
        (Host.answer request world).2
      rw [run, World.answer_limited generous request (Nat.le_trans between fits)]
      exact ih _ (World.generous_answer generous request) fits

end Interaction

namespace Plan

variable {φ : Type} [FileStore φ] {plan : Plan} {store : Store} {world : World φ}
  {bounds : Sink.Bounds}

theorem generous_run (generous : world.output.Generous) (steps : Nat) :
    (plan.run store world steps).2.output.Generous := by
  induction steps with
  | zero => exact generous
  | succ steps ih =>
      rw [run_succ]
      exact Interaction.generous_run _ ih

theorem size_run_succ_le (steps : Nat) :
    (plan.run store world steps).2.output.written.size ≤
      (plan.run store world (steps + 1)).2.output.written.size := by
  rw [run_succ]
  exact World.size_run_le _ _

/-- A run on a bounded sink is the same run while the output fits. -/
theorem run_limited_of_fits (generous : world.output.Generous) {steps : Nat}
    (fits : (plan.run store world steps).2.output.written.size ≤ bounds.limit) :
    plan.run store (world.limited bounds) steps =
      ((plan.run store world steps).1, (plan.run store world steps).2.limited bounds) := by
  induction steps with
  | zero => rfl
  | succ steps ih =>
      rw [run_succ, ih (Nat.le_trans (size_run_succ_le steps) fits), run_succ]
      rw [run_succ] at fits
      exact Interaction.run_limited _ (generous_run generous steps) fits

end Plan

/-- A count that comes to exceed a limit crosses it somewhere. -/
theorem exists_crossing (count : Nat → Nat) {limit steps : Nat} (starts : count 0 ≤ limit)
    (ends : limit < count steps) :
    ∃ step < steps, count step ≤ limit ∧ limit < count (step + 1) := by
  induction steps with
  | zero => omega
  | succ steps ih =>
      by_cases fits : count steps ≤ limit
      · exact ⟨steps, Nat.lt_succ_self steps, fits, ends⟩
      · obtain ⟨step, within, crosses⟩ := ih (Nat.lt_of_not_le fits)
        exact ⟨step, Nat.lt_succ_of_lt within, crosses⟩

/-- Only a write adds to what was written. -/
theorem Effect.eq_write_of_grows {σ ι φ : Type} [Host σ] (ledger : Ledger σ ι φ) {effect : Effect}
    {store : Store} {host : σ}
    (grows : ledger.written (effect.perform.exec store host).2 ≠ ledger.written host) :
    ∃ bytes call, effect = .write bytes call := by
  have performed := effect.perform_performed store host
  generalize effect.perform.exec store host = done at performed grows
  cases performed with
  | written _ | unwritten _ => exact ⟨_, _, rfl⟩
  | nothing | assigned _ _ | poked _ _ => exact absurd rfl grows
  | unflushed flushed => exact absurd (ledger.written_eq flushed nofun) grows
  | taken flushed read | exhausted flushed read | unread flushed read =>
      have kept := ledger.written_eq read nofun
      rw [ledger.written_eq flushed nofun] at kept
      exact absurd kept grows
  | loaded read _ | overfull read _ | unloaded read =>
      exact absurd (ledger.written_eq read nofun) grows
  | saved wrote | unsaved wrote => exact absurd (ledger.written_eq wrote nofun) grows

namespace Statement

theorem ComesTo.call_of_write {plan : Plan} {store : Store} {statement : Statement} {bytes : Bytes}
    {call : Position} {succession : Succession}
    (comes : ComesTo plan store statement (.write bytes call) succession) :
    ∃ name args, statement = .call name args call ∧ succession = .proceed := by
  cases comes with
  | showCharacter _ | showNumber _ | inspect _ => exact ⟨_, _, rfl, rfl⟩

/-- A statement that adds to what was written is a call, and a write is all that it comes to. -/
theorem writes_of_grows {σ ι φ : Type} [Host σ] (ledger : Ledger σ ι φ) {plan : Plan}
    {statement : Statement} (calls : statement.CallsStandard plan.library) {store : Store}
    {host : σ}
    (grows : ledger.written ((statement.execute plan).exec store host).2 ≠ ledger.written host) :
    ∃ name args call bytes, statement = .call name args call ∧
      statement.effect plan store = .ok (.write bytes call, .proceed) := by
  have executed := execute_executed calls store host
  generalize (statement.execute plan).exec store host = result at executed grows
  have found : ∃ effect succession, statement.effect plan store = .ok (effect, succession) ∧
      ledger.written (effect.perform.exec store host).2 ≠ ledger.written host := by
    cases executed with
    | rejected checks => exact absurd rfl grows
    | failed effect checks performed => exact ⟨effect, _, checks, by rw [performed]; exact grows⟩
    | done effect checks performed => exact ⟨effect, _, checks, by rw [performed]; exact grows⟩
  obtain ⟨effect, succession, checks, grows⟩ := found
  obtain ⟨bytes, call, rfl⟩ := Effect.eq_write_of_grows ledger grows
  obtain ⟨name, args, called, rfl⟩ := (comesTo_of_effect checks).call_of_write
  exact ⟨name, args, call, bytes, called, checks⟩

theorem execute_write {σ : Type} [Host σ] {plan : Plan} {statement : Statement}
    (calls : statement.CallsStandard plan.library) {store : Store} {bytes : Bytes}
    {call : Position} {succession : Succession}
    (checks : statement.effect plan store = .ok (.write bytes call, succession)) (host : σ) :
    (statement.execute plan).exec store host =
      match Host.answer (.write bytes) host with
      | (.ok (), after) => ((.ok succession, store), after)
      | (.error reason, after) => ((.error ⟨.output reason, call⟩, store), after) := by
  rw [execute_exec calls, checks, Command.goOn, conclude, Command.exec_bind, Effect.perform,
    Command.exec_emit]
  rcases Host.answer (.write bytes) host with ⟨reason | _, after⟩
  · rfl
  · rfl

end Statement

/-- Where a run without bounds has come to before the call whose bytes cross a limit. -/
structure Plan.Crosses {φ : Type} [FileStore φ] (plan : Plan) (store : Store) (world : World φ)
    (limit : Nat) (call : Position) (left : Store) (before : World φ) : Prop where
  reached : ∃ steps pointer name args,
    plan.run store world steps = (⟨.running pointer, left⟩, before) ∧
    plan.program[pointer]? = some (.call name args call) ∧
    limit < (plan.run store world (steps + 1)).2.output.written.size
  fits : before.output.written.size ≤ limit

/-- The last flush of a run that has failed does not change its outcome. -/
theorem Execution.step_closing_error {σ : Type} [Host σ] (plan : Plan) (error : RunError)
    (store : Store) (host : σ) :
    step plan ⟨.closing (.error error), store⟩ host =
      (⟨.finished (.error error), store⟩, (Host.answer .flush host).2) := by
  rw [step_closing, Command.exec_flush]
  rcases Host.answer Request.flush host with ⟨reason | _, after⟩
  · rfl
  · rfl

namespace Plan

variable {φ : Type} [FileStore φ] {plan : Plan} {store : Store} {world : World φ}
  {bounds : Sink.Bounds}

/-- A transition that adds to what was written carries out a call that comes to a write. -/
theorem write_of_grows (calls : plan.CallsStandard) {steps : Nat}
    (grows : (plan.run store world steps).2.output.written ≠
      (plan.run store world (steps + 1)).2.output.written) :
    ∃ pointer name args call bytes left before,
      plan.run store world steps = (⟨.running pointer, left⟩, before) ∧
      plan.program[pointer]? = some (.call name args call) ∧
      (Statement.call name args call).effect plan left = .ok (.write bytes call, .proceed) := by
  rw [run_succ] at grows
  rcases reached : plan.run store world steps with ⟨⟨stage, left⟩, before⟩
  rw [reached] at grows
  cases stage with
  | running pointer =>
      cases present : plan.program[pointer]? with
      | none =>
          rw [Execution.step_past_end present] at grows
          exact absurd rfl grows
      | some statement =>
          rw [Execution.step_statement present] at grows
          have grows' : World.ledger.written ((statement.execute plan).exec left before).2 ≠
              World.ledger.written before :=
            fun same => grows (Array.toList_inj.mp same.symm)
          obtain ⟨name, args, call, bytes, rfl, checks⟩ :=
            Statement.writes_of_grows World.ledger (calls statement (Array.mem_of_getElem? present))
              grows'
          exact ⟨pointer, name, args, call, bytes, left, before, rfl, present, checks⟩
  | closing outcome =>
      obtain ⟨last, closed⟩ := Execution.step_closing_host plan outcome left before
      rw [closed] at grows
      have kept := World.ledger.written_kept .flush before nofun
      exact absurd (Array.toList_inj.mp kept).symm grows
  | finished outcome =>
      rw [Execution.step_finished] at grows
      exact absurd rfl grows

/-- The first bytes of the output, once there are so many, stay what they are. -/
theorem take_written_of_le {steps total limit : Nat} (order : steps ≤ total)
    (enough : limit ≤ (plan.run store world steps).2.output.written.size) :
    (plan.run store world total).2.output.written.toList.take limit =
      (plan.run store world steps).2.output.written.toList.take limit := by
  have grown : (plan.run store world steps).2.output.written.toList <+:
      (plan.run store world total).2.output.written.toList :=
    Execution.written_advance_le World.ledger plan (.start store) world order
  obtain ⟨rest, grown⟩ := grown
  rw [← grown, List.take_append_of_le_length (by rw [Array.length_toList]; exact enough)]

/-- A run whose output does not fit fails at the call whose bytes cross the limit, with that call's
effect on the output cut off and no effect on anything else. -/
theorem ends_limited_of_crosses (calls : plan.CallsStandard) (generous : world.output.Generous)
    {steps total : Nat} (within : steps < total)
    (fits : (plan.run store world steps).2.output.written.size ≤ bounds.limit)
    (crosses : bounds.limit < (plan.run store world (steps + 1)).2.output.written.size) :
    ∃ call left before, plan.Crosses store world bounds.limit call left before ∧
      plan.Ends store (world.limited bounds) (.error ⟨.output bounds.refusal.reason, call⟩) left
        ((before.limited bounds).showing
          ((plan.run store world total).2.output.written.toList.take bounds.limit)).flush.2 := by
  have grows : (plan.run store world steps).2.output.written ≠
      (plan.run store world (steps + 1)).2.output.written := by
    intro same
    rw [← same] at crosses
    omega
  obtain ⟨pointer, name, args, call, bytes, left, before, reached, present, checks⟩ :=
    write_of_grows calls grows
  have standard := calls _ (Array.mem_of_getElem? present)
  have calm : before.output.Generous := by
    have kept : (plan.run store world steps).2.output.Generous := generous_run generous steps
    rw [reached] at kept
    exact kept
  have next : plan.run store world (steps + 1) =
      (⟨.running (pointer + 1), left⟩, { before with output := before.output.accept bytes }) := by
    rw [run_succ, reached, Execution.step_statement present,
      Statement.execute_write standard checks, World.answer_write calm]
    rfl
  have exceeds : bounds.limit < before.output.written.size + bytes.length := by
    rw [next, Sink.size_accept] at crosses
    exact crosses
  have front : (plan.run store world total).2.output.written.toList.take bounds.limit =
      (before.output.written.toList ++ bytes).take bounds.limit := by
    rw [take_written_of_le within (Nat.le_of_lt crosses), next, Sink.toList_accept]
  refine ⟨call, left, before, ⟨⟨steps, pointer, name, args, reached, present, crosses⟩, ?_⟩,
    steps + 2, ?_⟩
  · rw [reached] at fits
    exact fits
  · have cut : plan.run store (world.limited bounds) (steps + 1) =
        (⟨.closing (.error ⟨.output bounds.refusal.reason, call⟩), left⟩,
          (before.limited bounds).showing
            ((before.output.written.toList ++ bytes).take bounds.limit)) := by
      have alike := run_limited_of_fits generous fits
      rw [reached] at alike fits
      rw [run_succ, alike, Execution.step_statement present,
        Statement.execute_write standard checks, World.answer_write_overflow fits exceeds]
      rfl
    rw [run_succ, cut, front, Execution.step_closing_error]
    rfl

/-- A run that ends on a generous sink ends on a bounded one too: alike if its output fits, and else
at the call whose bytes do not, with the front part of the output and one last flush. -/
theorem ends_limited (calls : plan.CallsStandard) (generous : world.output.Generous)
    (bounds : Sink.Bounds) (starts : world.output.written.size ≤ bounds.limit) {outcome : Outcome}
    {final : Store} {after : World φ} (ends : plan.Ends store world outcome final after) :
    (after.output.written.size ≤ bounds.limit →
      plan.Ends store (world.limited bounds) outcome final (after.limited bounds)) ∧
    (bounds.limit < after.output.written.size →
      ∃ call left before, plan.Crosses store world bounds.limit call left before ∧
        plan.Ends store (world.limited bounds) (.error ⟨.output bounds.refusal.reason, call⟩) left
          ((before.limited bounds).showing
            (after.output.written.toList.take bounds.limit)).flush.2) := by
  obtain ⟨total, ended⟩ := ends
  constructor
  · intro fits
    refine ⟨total, ?_⟩
    rw [run_limited_of_fits generous (by rw [ended]; exact fits), ended]
  · intro exceeds
    have count : bounds.limit < (plan.run store world total).2.output.written.size := by
      rw [ended]
      exact exceeds
    obtain ⟨steps, within, fits, crosses⟩ :=
      exists_crossing (fun steps => (plan.run store world steps).2.output.written.size) starts count
    have stopped := ends_limited_of_crosses calls generous within fits crosses
    rw [ended] at stopped
    exact stopped

theorem ends_limited_showc :
    let place := Position.start "<output>"
    let put (byte : Int64) : Statement :=
      .call "showc" [⟨.integer byte, ⟨.integer, "", 1, place⟩⟩] place
    let plan := Plan.new .standard #[put 65, put 66, put 67]
    let world := World.quiet [] FileTable.empty
    let after := (plan.run (.new 0) world 5).2
    let bounds : Sink.Bounds := ⟨1, 2, .noSpace, by decide⟩
    plan.CallsStandard ∧ world.output.Generous ∧ world.output.written.size ≤ bounds.limit ∧
      plan.Ends (.new 0) world (.ok .pastEnd) (.new 0) after ∧
      bounds.limit < after.output.written.size ∧
      ∃ call left before, plan.Crosses (.new 0) world bounds.limit call left before ∧
        plan.Ends (.new 0) (world.limited bounds) (.error ⟨.output "no space left", call⟩) left
          ((before.limited bounds).showing
            (after.output.written.toList.take bounds.limit)).flush.2 := by
  intro place put plan world after bounds
  have calls : plan.CallsStandard := callsStandard_new _
  have generous : world.output.Generous := ⟨rfl, nofun⟩
  have starts : world.output.written.size ≤ bounds.limit := by decide
  have ends : plan.Ends (.new 0) world (.ok .pastEnd) (.new 0) after :=
    ⟨5, by with_unfolding_all rfl⟩
  have exceeds : bounds.limit < after.output.written.size := by decide +kernel
  exact ⟨calls, generous, starts, ends, exceeds,
    (ends_limited calls generous bounds starts ends).2 exceeds⟩

end Plan
end LineScript
