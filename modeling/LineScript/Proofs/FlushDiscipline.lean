import LineScript.Proofs.Event

/-!
When a run flushes. Nothing is read before everything written has been flushed, a call of `input`
whose flush fails takes nothing and changes nothing, and besides these flushes there is exactly one,
which comes last and is heard of only if nothing else has failed.
-/

namespace LineScript

namespace Event

/-- Every read comes after a flush that succeeded, with nothing but interrupted reads in between. -/
def Prompted (events : List Event) : Prop :=
  ∀ earlier item later, events = earlier ++ .read item :: later →
    ∃ front between, earlier = front ++ .flushed (.ok ()) :: between ∧
      ∀ event ∈ between, event = .read (some .interrupt)

theorem prompted_of_readless {events : List Event} (readless : ∀ item, .read item ∉ events) :
    Prompted events := by
  rintro earlier item later rfl
  exact absurd (List.mem_append_right earlier List.mem_cons_self) (readless item)

theorem Prompted.append {first second : List Event} (prompted : Prompted first)
    (prompted' : Prompted second) : Prompted (first ++ second) := by
  intro earlier item later split
  obtain ⟨rest, rfl, within⟩ | ⟨rest, within, beyond⟩ := List.append_eq_append_iff.mp split
  · obtain ⟨front, between, rfl, interrupted⟩ := prompted' rest item later within
    exact ⟨first ++ front, between, (List.append_assoc _ _ _).symm, interrupted⟩
  · cases rest with
    | nil =>
        rw [List.append_nil] at within
        subst within
        obtain ⟨front, between, empty, _⟩ := prompted' [] item later beyond.symm
        simp at empty
    | cons event rest =>
        obtain ⟨rfl, _⟩ := List.cons.inj beyond
        exact prompted earlier item rest within

theorem Prompted.flatMap {α : Type} {happens : α → List Event} {list : List α}
    (prompted : ∀ element ∈ list, Prompted (happens element)) :
    Prompted (list.flatMap happens) := by
  induction list with
  | nil => exact prompted_of_readless nofun
  | cons element list ih =>
      rw [List.flatMap_cons]
      refine (prompted element List.mem_cons_self).append (ih fun other member => ?_)
      exact prompted other (List.mem_cons_of_mem _ member)

/-- The reads of a delivery right after a flush. -/
theorem prompted_reads (input : List InputItem) :
    Prompted (.flushed (.ok ()) :: (InputItem.reads input).map .read) := by
  intro earlier item later split
  cases earlier with
  | nil => cases split
  | cons event between =>
      rw [List.cons_append] at split
      obtain ⟨rfl, tail⟩ := List.cons.inj split
      refine ⟨[], between, rfl, fun event member => ?_⟩
      obtain ⟨interrupts, last, found⟩ := InputItem.exists_reads input
      rw [found, List.map_append, List.map_replicate, List.map_singleton] at tail
      -- The read that `between` lies before is not one more than there are, so all before it are
      -- among the interrupted ones.
      have front : between <+:
          List.replicate interrupts (.read (some .interrupt)) ++ [.read last] :=
        ⟨.read item :: later, tail.symm⟩
      obtain whole | inside := List.prefix_concat_iff.mp front
      · have lengths := congrArg List.length tail
        rw [← whole, List.length_append, List.length_cons] at lengths
        omega
      · exact List.eq_of_mem_replicate (inside.subset member)

theorem countP_isFlush_reads (items : List (Option InputItem)) :
    (items.map Event.read).countP isFlush = 0 := by
  rw [List.countP_eq_zero]
  intro event member
  obtain ⟨item, _, rfl⟩ := List.mem_map.mp member
  exact Bool.false_ne_true

end Event

variable {φ : Type}

namespace World

/-- Everything written so far had been written when a flush last succeeded. -/
def Flushed (world : World φ) : Prop :=
  world.flushes.head? = some world.output.written.size

theorem flushed_of_flush {world ready : World φ} (flushed : world.flush = (.ok (), ready)) :
    ready.Flushed := by
  rw [flush] at flushed
  split at flushed
  · cases flushed
  · cases flushed
    rfl

theorem input_flush (world : World φ) : world.flush.2.input = world.input := by
  rw [flush]
  split <;> rfl

theorem flushAttempts_flush (world : World φ) :
    world.flush.2.flushAttempts = world.flushAttempts + 1 := by
  rw [flush]
  split <;> rfl

variable [FileStore φ]

/-- A world counts the attempts to flush. -/
theorem flushAttempts_answer (request : Request) (world : World φ) :
    (Host.answer request world).2.flushAttempts =
      world.flushAttempts + (Exchange.events ⟨request, world⟩).countP Event.isFlush := by
  cases request with
  | write _ | readFile _ => rfl
  | flush => exact world.flushAttempts_flush
  | readByte =>
      rw [Exchange.events, Event.countP_isFlush_reads]
      rfl
  | writeFile path bytes =>
      simp only [Host.answer, answer]
      split <;> rfl

end World

variable [FileStore φ]

theorem Interaction.flushAttempts_run {α : Type} (interaction : Interaction α) (world : World φ) :
    (interaction.run world).2.flushAttempts = world.flushAttempts +
      ((interaction.exchanges world).flatMap Exchange.events).countP Event.isFlush := by
  induction interaction generalizing world with
  | done value => rfl
  | ask request resume ih =>
      rw [run, ih, World.flushAttempts_answer, exchanges, List.flatMap_cons, List.countP_append,
        Nat.add_assoc]

theorem Plan.flushAttempts_run (plan : Plan) (store : Store) (world : World φ) (steps : Nat) :
    (plan.run store world steps).2.flushAttempts =
      world.flushAttempts + (plan.events store world steps).countP Event.isFlush := by
  induction steps with
  | zero => rfl
  | succ steps ih =>
      rw [run_succ, events, exchanges, List.flatMap_append, List.countP_append, ← Nat.add_assoc,
        ← events, ← ih]
      exact Interaction.flushAttempts_run _ _

/-- What a world sees of an effect. -/
theorem Exchanged.events {world : World φ} {takes : Bool} {exchanges : List (Exchange (World φ))}
    (exchanged : Exchanged world takes exchanges) :
    Event.Prompted (exchanges.flatMap Exchange.events) ∧
      (exchanges.flatMap Exchange.events).countP Event.isFlush = takes.toNat ∧
      ∀ exchange ∈ exchanges, exchange.request = .readByte → exchange.host.Flushed := by
  cases exchanged with
  | nothing => exact ⟨Event.prompted_of_readless nofun, rfl, nofun⟩
  | @other request flushless readless =>
      rw [List.flatMap_singleton]
      have unread : ∀ exchange ∈ [(⟨request, world⟩ : Exchange (World φ))],
          exchange.request = .readByte → exchange.host.Flushed := by
        intro exchange member reads
        obtain rfl := List.mem_singleton.mp member
        exact absurd reads readless
      cases request with
      | flush => exact absurd rfl flushless
      | readByte => exact absurd rfl readless
      | write _ | readFile _ | writeFile _ _ =>
          exact ⟨Event.prompted_of_readless (by simp [Exchange.events]), rfl, unread⟩
  | refused flushed =>
      rw [List.flatMap_singleton]
      refine ⟨Event.prompted_of_readless (by simp [Exchange.events]), rfl, ?_⟩
      intro exchange member reads
      obtain rfl := List.mem_singleton.mp member
      cases reads
  | @prompted ready flushed =>
      have result : world.flush.1 = .ok () := congrArg Prod.fst flushed
      rw [List.flatMap_cons, List.flatMap_singleton]
      simp only [Exchange.events, result, List.singleton_append]
      refine ⟨Event.prompted_reads ready.input, ?_, fun exchange member reads => ?_⟩
      · rw [List.countP_cons, Event.countP_isFlush_reads]
        rfl
      · obtain rfl | later := List.mem_cons.mp member
        · cases reads
        · obtain rfl := List.mem_singleton.mp later
          exact World.flushed_of_flush flushed

/-- A deed that asks for input takes nothing when its flush fails. -/
theorem Deed.result_of_flush_error {deed : Deed (World φ)} (standard : deed.Standard)
    (asks : deed.asksInput = true) {reason : String} {after : World φ}
    (refused : deed.host.flush = (.error reason, after)) :
    ∃ target call, deed.statement = .call "input" [target] call ∧
      deed.result = ((.error ⟨.output reason, call⟩, deed.store), after) ∧
      after.input = deed.host.input := by
  obtain ⟨target, name, call, calls, _, checks⟩ := deed.effect_of_asksInput asks
  refine ⟨target, call, calls, ?_, ?_⟩
  · have answered : Host.answer .flush deed.host = (.error reason, after) := refused
    rw [result, Statement.execute_exec standard.calls, checks, Command.goOn, Statement.conclude,
      Command.exec_bind, Effect.exec_take, answered]
  · rw [← deed.host.input_flush, refused]

/-- The place that stands for the end of a program: that of the last statement that has one, or the
start of nothing if no statement has. -/
def Program.EndsAt (program : Program) (position : Position) : Prop :=
  (∃ earlier statement later, program.toList = earlier ++ statement :: later ∧
      statement.position? = some position ∧ ∀ other ∈ later, other.position? = none) ∨
    (∀ statement ∈ program, statement.position? = none) ∧ position = ⟨"<program>", 1, 1, 0⟩

theorem Program.lastPosition_endsAt (program : Program) : program.EndsAt program.lastPosition := by
  rw [lastPosition]
  cases found : program.toList.reverse.findSome? Statement.position? with
  | none =>
      refine .inr ⟨fun statement member => ?_, rfl⟩
      refine List.findSome?_eq_none_iff.mp found statement ?_
      exact List.mem_reverse.mpr (Array.mem_toList_iff.mpr member)
  | some position =>
      obtain ⟨later, statement, earlier, split, placed, bare⟩ :=
        List.findSome?_eq_some_iff.mp found
      refine .inl ⟨earlier.reverse, statement, later.reverse, ?_, placed, fun other member => ?_⟩
      · have whole := congrArg List.reverse split
        rw [List.reverse_reverse] at whole
        rw [whole]
        simp
      · exact bare other (List.mem_reverse.mp member)

/-- What a run returns, from what carrying out its statements came to and from its last flush. -/
inductive Outcome.Returned (program : Program) : Outcome → Except String Unit → Outcome → Prop
  | failed (error : RunError) (flushed : Except String Unit) :
      Returned program (.error error) flushed (.error error)
  | unflushed (ending : Ending) (reason : String) {position : Position}
      (last : program.EndsAt position) :
      Returned program (.ok ending) (.error reason) (.error ⟨.output reason, position⟩)
  | ended (ending : Ending) : Returned program (.ok ending) (.ok ()) (.ok ending)

theorem Execution.step_closing_returned {plan : Plan} {executed outcome : Outcome}
    {store final : Store} {ready after : World φ}
    (ended : step plan ⟨.closing executed, store⟩ ready = (⟨.finished outcome, final⟩, after)) :
    final = store ∧ after = ready.flush.2 ∧
      Outcome.Returned plan.program executed ready.flush.1 outcome := by
  rw [step_closing, Command.exec_flush] at ended
  have answered : Host.answer .flush ready = (ready.flush.1, ready.flush.2) := rfl
  rw [answered] at ended
  generalize ready.flush.1 = flushed at ended ⊢
  cases flushed with
  | error reason =>
      cases executed with
      | error error =>
          cases ended
          exact ⟨rfl, rfl, .failed error _⟩
      | ok ending =>
          cases ended
          exact ⟨rfl, rfl, .unflushed ending reason plan.program.lastPosition_endsAt⟩
  | ok _ =>
      cases executed with
      | error error =>
          cases ended
          exact ⟨rfl, rfl, .failed error _⟩
      | ok ending =>
          cases ended
          exact ⟨rfl, rfl, .ended ending⟩

theorem Plan.countP_isFlush_deeds {plan : Plan} (calls : plan.CallsStandard) (store : Store)
    (world : World φ) (steps : Nat) :
    ((plan.deeds store world steps).flatMap Deed.events).countP Event.isFlush =
      (plan.deeds store world steps).countP Deed.asksInput := by
  have each (deed : Deed (World φ)) (member : deed ∈ plan.deeds store world steps) :
      deed.events.countP Event.isFlush = deed.asksInput.toNat := by
    obtain ⟨rfl, inside⟩ := of_mem_deeds member
    exact (Deed.exchanges_exchanged (calls _ inside)).events.2.1
  generalize plan.deeds store world steps = deeds at each
  induction deeds with
  | nil => rfl
  | cons deed deeds ih =>
      rw [List.flatMap_cons, List.countP_append, List.countP_cons, each deed List.mem_cons_self,
        ih fun other member => each other (List.mem_cons_of_mem _ member), Nat.add_comm]
      cases deed.asksInput <;> rfl

/-- How a run has come to its end: what carrying out its statements came to, then a flush, after as
many attempts before it as calls of `input` were made, and from both what it returns. -/
structure Plan.Concluded (plan : Plan) (store : Store) (world : World φ) (steps : Nat)
    (outcome : Outcome) (final : Store) (after : World φ) : Prop where
  returned : ∃ executed ready earlier happened,
    plan.run store world earlier = (⟨.closing executed, final⟩, ready) ∧
    after = ready.flush.2 ∧
    Outcome.Returned plan.program executed ready.flush.1 outcome ∧
    plan.events store world steps = happened ++ [.flushed ready.flush.1] ∧
    happened.countP Event.isFlush = (plan.deeds store world steps).countP Deed.asksInput
  attempts : after.flushAttempts =
    world.flushAttempts + ((plan.deeds store world steps).countP Deed.asksInput + 1)

/-- Reads come after flushes, a flush that fails keeps a call from reading, and a run flushes once
more than it asks for input, at its end and without hiding an error of its own. -/
theorem Plan.flush_discipline (program : Program) (store : Store) (world : World φ) (steps : Nat) :
    let plan := Plan.new .standard program
    Event.Prompted (plan.events store world steps) ∧
    (∀ exchange ∈ plan.exchanges store world steps, exchange.request = .readByte →
      exchange.host.Flushed) ∧
    (∀ deed ∈ plan.deeds store world steps, deed.asksInput = true → ∀ reason after,
      deed.host.flush = (.error reason, after) →
      ∃ target call, deed.statement = .call "input" [target] call ∧
        deed.result = ((.error ⟨.output reason, call⟩, deed.store), after) ∧
        after.input = deed.host.input) ∧
    ∀ outcome final after, plan.run store world steps = (⟨.finished outcome, final⟩, after) →
      plan.Concluded store world steps outcome final after := by
  intro plan
  have calls : plan.CallsStandard := callsStandard_new program
  have seen (deed : Deed (World φ)) (member : deed ∈ plan.deeds store world steps) :=
    (Deed.exchanges_exchanged ((of_mem_deeds member).1 ▸ calls _ (of_mem_deeds member).2)).events
  refine ⟨?_, fun exchange member reads => ?_, fun deed member asks reason after refused => ?_, ?_⟩
  · have prompted := Event.Prompted.flatMap fun deed member => (seen deed member).1
    obtain ⟨_, happened⟩ | ⟨_, _, _, _, _, happened⟩ := plan.events_eq store world steps
    · rw [happened]
      exact prompted
    · rw [happened]
      exact prompted.append (Event.prompted_of_readless (by simp))
  · obtain ⟨_, asked⟩ | ⟨_, _, ready, _, _, asked⟩ := plan.exchanges_eq store world steps
    · rw [asked] at member
      obtain ⟨deed, carried, inside⟩ := List.mem_flatMap.mp member
      exact (seen deed carried).2.2 exchange inside reads
    · rw [asked] at member
      obtain within | last := List.mem_append.mp member
      · obtain ⟨deed, carried, inside⟩ := List.mem_flatMap.mp within
        exact (seen deed carried).2.2 exchange inside reads
      · obtain rfl := List.mem_singleton.mp last
        cases reads
  · have standard : deed.Standard := congrArg Plan.library (of_mem_deeds member).1
    exact Deed.result_of_flush_error standard asks refused
  · intro outcome final after finished
    obtain ⟨unfinished, _⟩ | ⟨executed, left, ready, ⟨earlier, closing⟩, ended, happened⟩ :=
      plan.events_eq store world steps
    · exact absurd (by rw [finished]) (unfinished outcome)
    · obtain ⟨rfl, rfl, returned⟩ := Execution.step_closing_returned (ended.symm.trans finished)
      have counted := countP_isFlush_deeds calls store world steps
      refine ⟨⟨executed, ready, earlier, _, closing, rfl, returned, happened, counted⟩, ?_⟩
      have attempts := plan.flushAttempts_run store world steps
      rw [finished, happened, List.countP_append, counted] at attempts
      exact attempts

/-- A call of `input` whose flush fails, and the last flush after it. -/
theorem Plan.flush_discipline_refused :
    let place := Position.start "<input>"
    let statement : Statement :=
      .call "input" [⟨.variable "x", ⟨.identifier, "x", 1, place⟩⟩] place
    let plan := Plan.new .standard #[statement]
    let world : World FileTable :=
      { World.quiet [7] FileTable.empty with failingFlushes := [1] }
    let ready : World FileTable := { world with flushAttempts := 1 }
    let after : World FileTable := { world with flushAttempts := 2, flushes := [0] }
    let deed : Deed (World FileTable) := ⟨plan, statement, .new 1, world⟩
    let error : RunError := ⟨.output "flush failed", place⟩
    deed ∈ plan.deeds (.new 1) world 3 ∧ deed.asksInput = true ∧
    deed.host.flush = (.error "flush failed", ready) ∧
    deed.result = ((.error error, .new 1), ready) ∧
    plan.run (.new 1) world 3 = (⟨.finished (.error error), .new 1⟩, after) ∧
    plan.Concluded (.new 1) world 3 (.error error) (.new 1) after := by
  intro place statement plan world ready after deed error
  obtain ⟨_, _, refusals, concluded⟩ :=
    Plan.flush_discipline #[statement] (.new 1) world 3
  have carried : plan.deeds (.new 1) world 3 = [deed] := by rfl
  have member : deed ∈ plan.deeds (.new 1) world 3 := carried ▸ List.mem_singleton_self deed
  have asks : deed.asksInput = true := by rfl
  have refused : deed.host.flush = (.error "flush failed", ready) := by rfl
  have finished : plan.run (.new 1) world 3 = (⟨.finished (.error error), .new 1⟩, after) := by rfl
  obtain ⟨_, _, same, result, _⟩ := refusals deed member asks _ _ refused
  cases same
  exact ⟨member, asks, refused, result, finished, concluded _ _ _ finished⟩

end LineScript
