import LineScript.Proofs.Relocation
import LineScript.World

/-!
Labels that nothing reaches. A label that no jump names, or that a later definition hides, can be
taken out of a program: the run without it is the run with it, less the visits to the label.
-/

namespace LineScript
namespace Program

/-- A label that no jump names, or that is defined again later. -/
def DeadLabel (program : Program) (index : Nat) : Prop :=
  ∃ name, program[index]? = some (.label name) ∧
    ((∀ statement ∈ program, ∀ destination ∈ statement.destination?, destination.label ≠ name) ∨
      ∃ later, index < later ∧ program[later]? = some (.label name))

/-- The program without the statement at `removed`. -/
def without (program : Program) (removed : Nat) : Program :=
  program.eraseIdxIfInBounds removed

/-- Where an index is when the statement at `removed` is gone. What followed that statement is in
its place. -/
def indexWithout (removed index : Nat) : Nat :=
  if index ≤ removed then index else index - 1

theorem indexWithout_next {removed index : Nat} (other : index ≠ removed) :
    indexWithout removed (index + 1) = indexWithout removed index + 1 := by
  simp only [indexWithout]
  split <;> split <;> omega

theorem toList_without (program : Program) (removed : Nat) :
    (program.without removed).toList = program.toList.eraseIdx removed :=
  Array.toList_eraseIdxIfInBounds

theorem getElem?_without (program : Program) (removed index : Nat) :
    (program.without removed)[index]? =
      if index < removed then program[index]? else program[index + 1]? := by
  rw [← Array.getElem?_toList, toList_without, List.getElem?_eraseIdx, Array.getElem?_toList,
    Array.getElem?_toList]

theorem getElem?_indexWithout (program : Program) {removed index : Nat} (other : index ≠ removed) :
    (program.without removed)[indexWithout removed index]? = program[index]? := by
  rw [getElem?_without, indexWithout]
  by_cases before : index ≤ removed
  · have below : index < removed := by omega
    rw [if_pos before, if_pos below]
  · have above : ¬ index - 1 < removed := by omega
    have restored : index - 1 + 1 = index := by omega
    rw [if_neg before, if_neg above, restored]

variable {program : Program} {removed : Nat}

theorem LastLabel.indexWithout {label : String} {index : Nat} (last : program.LastLabel label index)
    (other : index ≠ removed) :
    (program.without removed).LastLabel label (indexWithout removed index) := by
  refine ⟨(getElem?_indexWithout program other).trans last.1, fun later above => ?_⟩
  rw [getElem?_without]
  rw [Program.indexWithout] at above
  split
  · exact last.2 later (by split at above <;> omega)
  · exact last.2 (later + 1) (by split at above <;> omega)

/-- No jump of the program leads to a dead label. -/
theorem DeadLabel.not_lastLabel (dead : program.DeadLabel removed) {statement : Statement}
    (member : statement ∈ program) {destination : Destination}
    (names : destination ∈ statement.destination?) {index : Nat}
    (last : program.LastLabel destination.label index) : index ≠ removed := by
  rintro rfl
  obtain ⟨name, found, dead⟩ := dead
  obtain ⟨present, hidden⟩ := last
  rw [found] at present
  cases present
  obtain unnamed | ⟨later, above, again⟩ := dead
  · exact unnamed statement member destination names rfl
  · exact hidden later above again

theorem DeadLabel.locate (dead : program.DeadLabel removed) {statement : Statement}
    (member : statement ∈ program) {destination : Destination}
    (names : destination ∈ statement.destination?) :
    (LabelTable.ofProgram (program.without removed)).locate destination =
      ((LabelTable.ofProgram program).locate destination).map (indexWithout removed) := by
  refine LabelTable.locate_map (fun index last => ?_) fun missing kept => ?_
  · exact last.indexWithout (dead.not_lastLabel member names last)
  · rw [Array.mem_def, toList_without] at kept
    exact missing (Array.mem_def.mpr (List.mem_of_mem_eraseIdx kept))

/-- A label has no place of its own for messages about the end of a run. -/
theorem DeadLabel.lastPosition (dead : program.DeadLabel removed) :
    (program.without removed).lastPosition = program.lastPosition := by
  obtain ⟨name, found, _⟩ := dead
  obtain ⟨statements⟩ := program
  rw [List.getElem?_toArray] at found
  obtain ⟨inside, found⟩ := List.getElem?_eq_some_iff.mp found
  have split : statements =
      statements.take removed ++ .label name :: statements.drop (removed + 1) := by
    rw [← found, List.getElem_cons_drop, List.take_append_drop]
  simp only [Program.lastPosition, toList_without,
    List.eraseIdx_eq_take_drop_succ]
  conv_rhs => rw [split]
  simp only [List.reverse_append, List.reverse_cons, List.findSome?_append, List.findSome?_cons,
    List.findSome?_nil, Statement.position?, Option.or_none]

theorem DeadLabel.relocates (dead : program.DeadLabel removed) (library : Library) {pointer : Nat}
    (other : pointer ≠ removed) :
    (Plan.new library program).Relocates
      (Plan.new library (program.without removed)) (indexWithout removed) pointer where
  library := rfl
  statement := getElem?_indexWithout program other
  next := indexWithout_next other
  labels _ present _ names := dead.locate (Array.mem_of_getElem? present) names

end Program

namespace Execution
open Program

variable {σ : Type} [Host σ] {program : Program} {removed : Nat}

/-- The label itself is passed without the other run taking a step. -/
theorem step_deadLabel (dead : program.DeadLabel removed) (library : Library) (store : Store)
    (host : σ) :
    step (.new library program) ⟨.running removed, store⟩ host =
      (⟨.running (removed + 1), store⟩, host) := by
  obtain ⟨name, found, _⟩ := dead
  have present : (Plan.new library program).program[removed]? = some (.label name) := found
  rw [step_statement present]
  rfl

theorem relocate_passed (removed : Nat) (store : Store) :
    relocate (indexWithout removed) ⟨.running (removed + 1), store⟩ =
      relocate (indexWithout removed) ⟨.running removed, store⟩ := by
  simp [relocate, Stage.relocate, indexWithout]

theorem step_without (dead : program.DeadLabel removed) (library : Library) {execution : Execution}
    (other : execution.stage ≠ .running removed) (host : σ) :
    step (.new library (program.without removed))
        (execution.relocate (indexWithout removed)) host =
      let after := step (.new library program) execution host
      (after.1.relocate (indexWithout removed), after.2) := by
  obtain ⟨stage, store⟩ := execution
  cases stage with
  | running pointer =>
      have elsewhere : pointer ≠ removed := fun same => other (congrArg Stage.running same)
      exact step_relocate (dead.relocates library elsewhere) store host
  | closing outcome =>
      have place : (Plan.new library (program.without removed)).program.lastPosition =
          (Plan.new library program).program.lastPosition := dead.lastPosition
      rw [step_closing]
      simp only [relocate, Stage.relocate]
      rw [step_closing, place]
  | finished outcome => rfl

theorem current?_without (dead : program.DeadLabel removed) (library : Library)
    {execution : Execution} (other : execution.stage ≠ .running removed) :
    (current? (.new library (program.without removed))
        (execution.relocate (indexWithout removed))).toList =
      ((current? (.new library program) execution).toList.filter (·.1 ≠ removed)).map
        fun entry => (indexWithout removed entry.1, entry.2) := by
  obtain ⟨stage, store⟩ := execution
  cases stage with
  | running pointer =>
      have elsewhere : pointer ≠ removed := fun same => other (congrArg Stage.running same)
      have current := current?_relocate (dead.relocates library elsewhere) store
      simp only [relocate, Stage.relocate]
      rw [current, current?_running]
      cases (Plan.new library program).program[pointer]? with
      | none => rfl
      | some statement => simp [elsewhere]
  | closing _ | finished _ => rfl

end Execution

namespace Plan
open Program Execution

variable {σ : Type} [Host σ]

/-- After so many transitions the run without the statement at `removed` has come as far as the
whole run: it stands at the same statement with the same store and host, and it has carried out the
same statements but for the removed one. -/
structure Abridged (plan short : Plan) (removed : Nat) (store : Store) (host : σ)
    (steps fewer : Nat) : Prop where
  reached : short.run store host fewer =
    let whole := plan.run store host steps
    (whole.1.relocate (indexWithout removed), whole.2)
  trace : short.trace store host fewer =
    ((plan.trace store host steps).filter (·.1 ≠ removed)).map
      fun entry => (indexWithout removed entry.1, entry.2)

namespace Abridged

variable {library : Library} {program : Program} {removed : Nat} {store : Store} {host : σ}
  {steps fewer : Nat}

theorem start (plan short : Plan) (removed : Nat) (store : Store) (host : σ) :
    plan.Abridged short removed store host 0 0 := by
  refine ⟨?_, rfl⟩
  simp [run, advance, Execution.start, relocate, Stage.relocate, indexWithout]

/-- At the label only the whole run makes a transition. -/
theorem pass (dead : program.DeadLabel removed)
    (abridged : (new library program).Abridged (new library (program.without removed)) removed store
      host steps fewer)
    (stands : ((new library program).run store host steps).1.stage = .running removed) :
    (new library program).Abridged (new library (program.without removed)) removed store host
      (steps + 1) fewer := by
  obtain ⟨reached, trace⟩ := abridged
  rcases whole : (new library program).run store host steps with ⟨⟨stage, left⟩, ready⟩
  rw [whole] at reached stands
  change stage = .running removed at stands
  subst stands
  refine ⟨?_, ?_⟩
  · rw [run_succ, whole, step_deadLabel dead]
    dsimp only
    rw [relocate_passed]
    exact reached
  · obtain ⟨name, found, _⟩ := dead
    have label : (new library program).program[removed]? = some (.label name) := found
    rw [Plan.trace, whole, trace, List.filter_append]
    simp [current?, label]

/-- Anywhere else the runs make the same transition. -/
theorem both (dead : program.DeadLabel removed)
    (abridged : (new library program).Abridged (new library (program.without removed)) removed store
      host steps fewer)
    (elsewhere : ((new library program).run store host steps).1.stage ≠ .running removed) :
    (new library program).Abridged (new library (program.without removed)) removed store host
      (steps + 1) (fewer + 1) := by
  obtain ⟨reached, trace⟩ := abridged
  refine ⟨?_, ?_⟩
  · rw [run_succ, run_succ, reached, step_without dead library elsewhere]
  · rw [Plan.trace, Plan.trace, reached, trace, List.filter_append, List.map_append,
      current?_without dead library elsewhere]

end Abridged

/-- A run does not stay at a dead label. -/
theorem stage_after_deadLabel {library : Library} {program : Program} {removed : Nat}
    (dead : program.DeadLabel removed) {store : Store} {host : σ} {steps : Nat}
    (stands : ((new library program).run store host steps).1.stage = .running removed) :
    ((new library program).run store host (steps + 1)).1.stage ≠ .running removed := by
  rw [run_succ]
  rcases whole : (new library program).run store host steps with ⟨⟨stage, left⟩, ready⟩
  rw [whole] at stands
  change stage = .running removed at stands
  subst stands
  rw [step_deadLabel dead]
  simp

/-- Every stage of the whole run has its counterpart in the run without the label. -/
theorem abridged_of_steps (library : Library) {program : Program} {removed : Nat}
    (dead : program.DeadLabel removed) (store : Store) (host : σ) (steps : Nat) :
    ∃ fewer ≤ steps,
      (new library program).Abridged (new library (program.without removed)) removed store host
        steps fewer := by
  induction steps with
  | zero => exact ⟨0, Nat.le_refl 0, .start _ _ removed store host⟩
  | succ steps ih =>
      obtain ⟨fewer, order, abridged⟩ := ih
      by_cases stands : ((new library program).run store host steps).1.stage = .running removed
      · exact ⟨fewer, Nat.le_succ_of_le order, abridged.pass dead stands⟩
      · exact ⟨fewer + 1, Nat.succ_le_succ order, abridged.both dead stands⟩

/-- Every stage of the run without the label has its counterpart in the whole run. -/
theorem abridged_of_fewer (library : Library) {program : Program} {removed : Nat}
    (dead : program.DeadLabel removed) (store : Store) (host : σ) (fewer : Nat) :
    ∃ steps ≥ fewer,
      (new library program).Abridged (new library (program.without removed)) removed store host
        steps fewer := by
  induction fewer with
  | zero => exact ⟨0, Nat.le_refl 0, .start _ _ removed store host⟩
  | succ fewer ih =>
      obtain ⟨steps, order, abridged⟩ := ih
      by_cases stands : ((new library program).run store host steps).1.stage = .running removed
      · have beyond := stage_after_deadLabel dead stands
        exact ⟨steps + 2, by omega, (abridged.pass dead stands).both dead beyond⟩
      · exact ⟨steps + 1, by omega, abridged.both dead stands⟩

/-- A dead label can be removed. The runs with and without it come the same way, store by store and
statement by statement, and one of them finishes as the other does. -/
theorem run_without_deadLabel (library : Library) {program : Program} {removed : Nat}
    (dead : program.DeadLabel removed) (store : Store) (host : σ) :
    let plan := new library program
    let short := new library (program.without removed)
    (∀ steps, ∃ fewer ≤ steps, plan.Abridged short removed store host steps fewer) ∧
      (∀ fewer, ∃ steps ≥ fewer, plan.Abridged short removed store host steps fewer) ∧
      ∀ outcome final after,
        plan.Ends store host outcome final after ↔ short.Ends store host outcome final after := by
  intro plan short
  have forward := abridged_of_steps library dead store host
  have backward := abridged_of_fewer library dead store host
  refine ⟨forward, backward, fun outcome final after => ⟨?_, ?_⟩⟩
  · rintro ⟨steps, ended⟩
    obtain ⟨fewer, _, abridged⟩ := forward steps
    exact ⟨fewer, by rw [abridged.reached, ended]; rfl⟩
  · rintro ⟨fewer, ended⟩
    obtain ⟨steps, _, abridged⟩ := backward fewer
    have same := abridged.reached.symm.trans ended
    rw [Prod.mk.injEq, relocate_eq_finished_iff] at same
    exact ⟨steps, Prod.ext same.1 same.2⟩

theorem run_without_deadLabel_shadowed :
    let place := Position.start "<input>"
    let program : Program := #[.label "out", .jump ⟨"out", place⟩, .label "out", .halt]
    let world := World.quiet [] FileTable.empty
    program.DeadLabel 0 ∧
      (new .standard program).Ends (.new 1) world (.ok .halted) (.new 1) world.flush.2 ∧
      (new .standard (program.without 0)).Ends (.new 1) world (.ok .halted) (.new 1)
        world.flush.2 := by
  refine ⟨⟨"out", rfl, .inr ⟨2, by decide, rfl⟩⟩, ⟨5, by rfl⟩, ?_⟩
  refine ((run_without_deadLabel .standard ?_ (.new 1) _).2.2 _ _ _).mp ⟨5, ?_⟩
  · exact ⟨"out", rfl, .inr ⟨2, by decide, rfl⟩⟩
  · rfl

end Plan
end LineScript
