import LineScript.Proofs.ControlFlow
import LineScript.Proofs.Event
import Mathlib.Data.List.Nodup
import Mathlib.Data.List.Perm.Subperm

/-!
Programs whose jumps all lead forward. A run of one carries out its statements in order and none of
them twice, so it is over after at most as many of them as the program has.
-/

namespace LineScript

namespace Program

variable {program : Program}

/-- Every jump and every branch names a label without a definition, or one whose last definition
comes after the jump. -/
def ForwardOnly (program : Program) : Prop :=
  ∀ (index : Nat) (statement : Statement) (destination : Destination),
    program[index]? = some statement → statement.destination? = some destination →
    .label destination.label ∉ program ∨
      ∃ target, program.LastLabel destination.label target ∧ index < target

theorem LastLabel.unique {label : String} {index other : Nat}
    (last : program.LastLabel label index) (last' : program.LastLabel label other) :
    index = other := by
  rw [← LabelTable.index?_ofProgram_eq_some_iff] at last last'
  exact Option.some.inj (last.symm.trans last')

theorem ForwardOnly.lt_of_lastLabel (forward : program.ForwardOnly) {pointer target : Nat}
    {statement : Statement} {destination : Destination}
    (present : program[pointer]? = some statement)
    (jumps : statement.destination? = some destination)
    (last : program.LastLabel destination.label target) : pointer < target := by
  obtain missing | ⟨found, last', ahead⟩ := forward pointer statement destination present jumps
  · exact absurd (Array.mem_of_getElem? last.1) missing
  · rw [last.unique last']
    exact ahead

/-- Without jumps back, every statement leads forward. -/
theorem ForwardOnly.lt_of_leads (forward : program.ForwardOnly) {store : Store}
    {pointer next : Nat} {statement : Statement} (present : program[pointer]? = some statement)
    (leads : program.Leads store pointer statement next) : pointer < next := by
  cases leads with
  | next _ _ | passed _ _ _ => exact Nat.lt_succ_self pointer
  | taken _ _ _ last | jump last => exact forward.lt_of_lastLabel present rfl last

end Program

/-- Numbers below a bound that go up are not more than the bound. -/
theorem length_le_of_ascending {list : List Nat} {bound : Nat} (ordered : list.Pairwise (· < ·))
    (below : ∀ number ∈ list, number < bound) : list.length ≤ bound := by
  have within : list ⊆ List.range bound := fun number member =>
    List.mem_range.mpr (below number member)
  exact Nat.le_trans (ordered.nodup.subperm within).length_le (Nat.le_of_eq List.length_range)

namespace Plan

variable {σ : Type} [Host σ]

/-- A run that has never gone back: the statements that it has carried out stand in the order of the
program, and while it goes on, one was carried out in each transition and it stands behind them
all. -/
structure Ascending (plan : Plan) (store : Store) (host : σ) (steps : Nat) : Prop where
  ordered : (plan.trace store host steps).Pairwise fun first second => first.1 < second.1
  inside : ∀ done ∈ plan.trace store host steps, plan.program[done.1]? = some done.2
  behind : ∀ pointer, (plan.run store host steps).1.stage = .running pointer →
    (plan.trace store host steps).length = steps ∧
      ∀ done ∈ plan.trace store host steps, done.1 < pointer

theorem Ascending.length_le {plan : Plan} {store : Store} {host : σ} {steps bound : Nat}
    (ascending : plan.Ascending store host steps)
    (below : ∀ done ∈ plan.trace store host steps, done.1 < bound) :
    (plan.trace store host steps).length ≤ bound := by
  rw [← List.length_map (f := Prod.fst)]
  refine length_le_of_ascending (List.pairwise_map.mpr ascending.ordered) fun index member => ?_
  obtain ⟨done, carried, rfl⟩ := List.mem_map.mp member
  exact below done carried

variable {library : Library} {program : Program} {store : Store} {host : σ} {steps : Nat}

/-- A transition that carries nothing out is not followed by a statement. -/
theorem Ascending.rest (ascending : (new library program).Ascending store host steps)
    (idle : ((new library program).run store host steps).1.current? (new library program) = none) :
    (new library program).Ascending store host (steps + 1) := by
  have continued : (new library program).trace store host (steps + 1) =
      (new library program).trace store host steps := by
    rw [trace, idle, Option.toList_none, List.append_nil]
  refine ⟨continued ▸ ascending.ordered, continued ▸ ascending.inside, fun next runs => ?_⟩
  obtain ⟨pointer, statement, left, before, stands, present, _⟩ := leads_of_running runs
  have current : ((new library program).run store host steps).1.current? (new library program) =
      some (pointer, statement) :=
    Execution.current?_eq_some_iff.mpr ⟨congrArg (·.1.stage) stands, present⟩
  rw [idle] at current
  cases current

/-- A statement that is carried out stands behind all others, and leads further on. -/
theorem Ascending.climb (forward : program.ForwardOnly)
    (ascending : (new library program).Ascending store host steps) {last : Nat × Statement}
    (current : ((new library program).run store host steps).1.current? (new library program) =
      some last) :
    (new library program).Ascending store host (steps + 1) := by
  obtain ⟨stands, present⟩ := Execution.current?_eq_some_iff.mp current
  obtain ⟨counted, passed⟩ := ascending.behind last.1 stands
  have continued : (new library program).trace store host (steps + 1) =
      (new library program).trace store host steps ++ [last] := by
    rw [trace, current, Option.toList_some]
  refine ⟨?_, ?_, fun next runs => ?_⟩
  · rw [continued]
    refine List.pairwise_append.mpr ⟨ascending.ordered, List.pairwise_singleton _ _, ?_⟩
    exact fun first earlier => List.forall_mem_singleton.mpr (passed first earlier)
  · rw [continued]
    exact List.forall_mem_append.mpr ⟨ascending.inside, List.forall_mem_singleton.mpr present⟩
  · obtain ⟨pointer, statement, left, before, reached, present', leads⟩ := leads_of_running runs
    rw [reached] at stands
    obtain rfl : pointer = last.1 := Stage.running.inj stands
    have ahead := forward.lt_of_leads present' leads
    rw [continued]
    refine ⟨by rw [List.length_append, counted, List.length_singleton], ?_⟩
    refine List.forall_mem_append.mpr ⟨fun other earlier => ?_, List.forall_mem_singleton.mpr ahead⟩
    exact Nat.lt_trans (passed other earlier) ahead

variable (library)

/-- Without jumps back a run never goes back. -/
theorem ascending_run (forward : program.ForwardOnly) (store : Store) (host : σ) (steps : Nat) :
    (new library program).Ascending store host steps := by
  induction steps with
  | zero =>
      have none {P : Nat × Statement → Prop} : ∀ done ∈ (new library program).trace store host 0,
          P done := List.forall_mem_nil P
      exact ⟨List.Pairwise.nil, none, fun pointer _ => ⟨rfl, none⟩⟩
  | succ steps ih =>
      cases current : ((new library program).run store host steps).1.current?
          (new library program) with
      | none => exact ih.rest current
      | some last => exact ih.climb forward current

/-- Without jumps back a run carries out at most as many statements as its program has. -/
theorem length_trace_le (forward : program.ForwardOnly) (store : Store) (host : σ) (steps : Nat) :
    ((new library program).trace store host steps).length ≤ program.size := by
  have ascending := ascending_run library forward store host steps
  exact ascending.length_le fun done carried =>
    (Array.getElem?_eq_some_iff.mp (ascending.inside done carried)).1

/-- Without jumps back a run finishes in one transition for each statement, one that passes the end
and one that flushes. -/
theorem finishes_of_forwardOnly (forward : program.ForwardOnly) (store : Store) (host : σ) :
    ∃ outcome final after, (new library program).run store host (program.size + 2) =
      (⟨.finished outcome, final⟩, after) := by
  rcases reached : (new library program).run store host (program.size + 1) with
    ⟨⟨stage, left⟩, before⟩
  rw [run_succ, reached]
  cases stage with
  | running pointer =>
      have ascending := ascending_run library forward store host (program.size + 1)
      obtain ⟨counted, _⟩ := ascending.behind pointer (by rw [reached])
      have short := length_trace_le library forward store host (program.size + 1)
      omega
  | closing ending =>
      obtain ⟨outcome, closed⟩ :=
        Execution.step_closing_host (new library program) ending left before
      exact ⟨outcome, left, _, closed⟩
  | finished outcome => exact ⟨outcome, left, before, rfl⟩

end Plan

/-- A program without jumps back finishes, from every store and in every world, after carrying out
its statements in order and none of them twice. It reads the input at most once for each item and
once for each statement carried out. -/
theorem Program.run_forwardOnly {φ : Type} [FileStore φ] {program : Program}
    (forward : program.ForwardOnly) (store : Store) (world : World φ) :
    let plan := Plan.new .standard program
    (∃ outcome final after,
      plan.run store world (program.size + 2) = (⟨.finished outcome, final⟩, after)) ∧
    ∀ steps,
      let done := plan.trace store world steps
      done.Pairwise (fun first second => first.1 < second.1) ∧ done.length ≤ program.size ∧
      (plan.events store world steps).countP Event.isRead ≤ world.input.length + done.length := by
  intro plan
  refine ⟨Plan.finishes_of_forwardOnly .standard forward store world, fun steps => ⟨?_, ?_, ?_⟩⟩
  · exact (Plan.ascending_run .standard forward store world steps).ordered
  · exact Plan.length_trace_le .standard forward store world steps
  · have read := Plan.countP_isRead_events (Plan.callsStandard_new program) store world steps
    have asked := List.countP_le_length (p := Deed.asksInput) (l := plan.deeds store world steps)
    rw [Plan.length_deeds] at asked
    exact Nat.le_trans read (Nat.add_le_add_left asked _)

/-- A jump to a label that is defined before and after it, behind a read that is interrupted
once. -/
theorem Program.run_forwardOnly_interrupted :
    let place := Position.start "<forward>"
    let program : Program := #[.label "on",
      .call "input" [⟨.variable "x", ⟨.identifier, "x", 1, place⟩⟩] place,
      .jump ⟨"on", place⟩, .label "on"]
    let plan := Plan.new .standard program
    let world : World FileTable := { World.quiet [] FileTable.empty with
      input := [.interrupt, .byte 7] }
    program.ForwardOnly ∧
    (∃ outcome final after, plan.run (.new 1) world 6 = (⟨.finished outcome, final⟩, after)) ∧
    (plan.trace (.new 1) world 6).length ≤ 4 ∧
    (plan.events (.new 1) world 6).countP Event.isRead ≤
      2 + (plan.trace (.new 1) world 6).length := by
  intro place program plan world
  have forward : program.ForwardOnly := by
    intro index statement destination present jumps
    match index with
    | 0 | 1 | 3 =>
        cases present
        cases jumps
    | 2 =>
        cases present
        cases jumps
        refine .inr ⟨3, ⟨rfl, fun later beyond => ?_⟩, by decide⟩
        rw [Array.getElem?_eq_none (show program.size ≤ later from beyond)]
        exact nofun
    | beyond + 4 => cases present
  obtain ⟨finishes, bounds⟩ := Program.run_forwardOnly forward (.new 1) world
  exact ⟨forward, finishes, (bounds 6).2⟩

end LineScript
