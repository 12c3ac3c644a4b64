import LineScript.Proofs.ControlFlow
import LineScript.Proofs.FlushBlind
import LineScript.Proofs.Relocation

/-!
One program after another. When neither of two programs jumps into the other, running both as one
program is running the first and then the second on what the first left: the run stays in the first
part until it passes its end, and in the second part every index is moved up by the length of the
first.
-/

namespace LineScript
namespace Program

/-- No jump of one program names a label of the other. -/
structure Separate (first second : Program) : Prop where
  forward : ∀ statement ∈ first, ∀ destination ∈ statement.destination?,
    .label destination.label ∉ second
  backward : ∀ statement ∈ second, ∀ destination ∈ statement.destination?,
    .label destination.label ∉ first

variable {first second : Program} {label : String}

theorem LastLabel.append_left {index : Nat} (last : first.LastLabel label index)
    (absent : .label label ∉ second) : Program.LastLabel (first ++ second) label index := by
  refine ⟨?_, fun later above found => ?_⟩
  · rw [Array.getElem?_append_left last.lt_size]
    exact last.1
  · rw [Array.getElem?_append] at found
    split at found
    · exact last.2 later above found
    · exact absent (Array.mem_of_getElem? found)

theorem LastLabel.append_right {index : Nat} (last : second.LastLabel label index) :
    Program.LastLabel (first ++ second) label (first.size + index) := by
  refine ⟨?_, fun later above found => ?_⟩
  · rw [Array.getElem?_append_right (Nat.le_add_right _ _), Nat.add_sub_cancel_left]
    exact last.1
  · rw [Array.getElem?_append_right (by omega)] at found
    exact last.2 (later - first.size) (by omega) found

theorem Separate.relocates_left (separate : first.Separate second) (library : Library)
    {pointer : Nat} (inside : pointer < first.size) :
    (Plan.new library first).Relocates (Plan.new library (first ++ second)) id pointer where
  library := rfl
  statement := Array.getElem?_append_left inside
  next := rfl
  labels statement present destination names := by
    have member : statement ∈ first := Array.mem_of_getElem? present
    have absent := separate.forward statement member destination names
    refine LabelTable.locate_map (fun _ last => last.append_left absent) fun missing found => ?_
    exact (Array.mem_append.mp found).elim missing absent

theorem Separate.relocates_right (separate : first.Separate second) (library : Library)
    (pointer : Nat) :
    (Plan.new library second).Relocates (Plan.new library (first ++ second)) (first.size + ·)
      pointer where
  library := rfl
  statement := by
    have inside : first.size ≤ first.size + pointer := Nat.le_add_right _ _
    have found : (first ++ second)[first.size + pointer]? =
        second[first.size + pointer - first.size]? := Array.getElem?_append_right inside
    rwa [Nat.add_sub_cancel_left] at found
  next := rfl
  labels statement present destination names := by
    have member : statement ∈ second := Array.mem_of_getElem? present
    have absent := separate.backward statement member destination names
    refine LabelTable.locate_map (fun _ last => last.append_right) fun missing found => ?_
    exact (Array.mem_append.mp found).elim absent missing

end Program

namespace Execution

variable {σ : Type} [Host σ]

theorem relocate_id (execution : Execution) : execution.relocate id = execution := by
  obtain ⟨stage, store⟩ := execution
  cases stage <;> rfl

end Execution

namespace Plan
open Execution

variable {σ τ : Type} [Host σ] {library : Library} {first second : Program}

/-- Inside the first program the whole makes the same transition. -/
theorem step_append_left (separate : first.Separate second) (library : Library) {pointer : Nat}
    (inside : pointer < first.size) (store : Store) (host : σ) :
    step (new library (first ++ second)) ⟨.running pointer, store⟩ host =
      step (new library first) ⟨.running pointer, store⟩ host := by
  have moved := step_relocate (separate.relocates_left library inside) store host
  dsimp only at moved
  rw [relocate_id] at moved
  exact moved

/-- As long as the first program runs, the whole runs with it. -/
theorem run_append_left (separate : first.Separate second) {store : Store} {host : σ}
    {steps pointer : Nat}
    (runs : ((new library first).run store host steps).1.stage = .running pointer) :
    (new library (first ++ second)).run store host steps =
      (new library first).run store host steps := by
  induction steps generalizing pointer with
  | zero => rfl
  | succ steps ih =>
      obtain ⟨earlier, statement, left, before, reached, present, _⟩ := leads_of_running runs
      have inside : earlier < first.size := (Array.getElem?_eq_some_iff.mp present).1
      rw [run_succ, run_succ, ih (by rw [reached]), reached,
        step_append_left separate library inside]

/-- The first program passes its end where the second begins. -/
theorem run_append_passes (separate : first.Separate second) {seen : FlushBlind σ τ}
    {store between : Store} {host ready : σ} (steady : seen.Steady host)
    (ends : (new library first).Ends store host (.ok .pastEnd) between ready) :
    ∃ steps before, (new library (first ++ second)).run store host steps =
        (⟨.running first.size, between⟩, before) ∧
      seen.Alike ready before := by
  obtain ⟨steps, pointer, left, before, host', running, closed, calm, rfl⟩ :=
    running_of_ends steady ends
  have goes : ((new library first).run store host steps).1.stage = .running pointer := by
    rw [running]
  have order := pointer_le_size_run goes
  have same := run_append_left separate goes
  by_cases inside : pointer < first.size
  · have present : (new library first).program[pointer]? = some first[pointer] :=
      Array.getElem?_eq_getElem inside
    have stage := congrArg (fun done => done.1.stage) closed
    exact absurd stage (step_statement_ne_pastEnd present left before)
  · have missing : (new library first).program[pointer]? = none :=
      Array.getElem?_eq_none (Nat.le_of_not_lt inside)
    rw [step_past_end missing] at closed
    cases closed
    have behind : pointer = first.size := Nat.le_antisymm order (Nat.le_of_not_lt inside)
    subst behind
    exact ⟨steps, before, same.trans running, .flush calm⟩

/-- A first program that fails or halts is all that runs. -/
theorem ends_append_left (separate : first.Separate second) {seen : FlushBlind σ τ}
    {store final : Store} {host after : σ} (steady : seen.Steady host) {outcome : Outcome}
    (early : outcome ≠ .ok .pastEnd)
    (ends : (new library first).Ends store host outcome final after) :
    (new library (first ++ second)).Ends store host outcome final after := by
  obtain ⟨steps, pointer, left, before, ready, running, closed, calm, rfl⟩ :=
    running_of_ends steady ends
  have same := run_append_left separate (by rw [running])
  by_cases inside : pointer < first.size
  · refine ⟨steps + 2, ?_⟩
    rw [run_succ, run_succ, same, running, step_append_left separate library inside, closed,
      step_closing_steady _ _ _ calm]
  · have missing : (new library first).program[pointer]? = none :=
      Array.getElem?_eq_none (Nat.le_of_not_lt inside)
    rw [step_past_end missing] at closed
    cases closed
    exact absurd rfl early

/-- The second program makes the same transition further up. -/
theorem step_append_right (separate : first.Separate second) (library : Library)
    {seen : FlushBlind σ τ} {host other : σ} (alike : seen.Alike host other)
    (execution : Execution) :
    let alone := step (new library second) execution host
    let whole := step (new library (first ++ second)) (execution.relocate (first.size + ·)) other
    whole.1 = alone.1.relocate (first.size + ·) ∧ seen.Alike alone.2 whole.2 := by
  obtain ⟨stage, store⟩ := execution
  cases stage with
  | running pointer =>
      have moved := step_relocate (separate.relocates_right library pointer) store other
      have same := step_alike (new library second) ⟨.running pointer, store⟩ alike
      simp only [relocate, Stage.relocate]
      rw [moved]
      exact ⟨by rw [same.1]; rfl, same.2⟩
  | closing ending =>
      simp only [relocate, Stage.relocate]
      rw [step_closing_steady _ ending store alike.steady,
        step_closing_steady _ ending store alike.steady']
      exact ⟨rfl, (alike.answer .flush).2⟩
  | finished outcome => exact ⟨rfl, alike⟩

theorem advance_append_right (separate : first.Separate second) (library : Library)
    {seen : FlushBlind σ τ} {host other : σ} (alike : seen.Alike host other)
    (execution : Execution) (steps : Nat) :
    let alone := advance (new library second) steps execution host
    let whole := advance (new library (first ++ second)) steps
      (execution.relocate (first.size + ·)) other
    whole.1 = alone.1.relocate (first.size + ·) ∧ seen.Alike alone.2 whole.2 := by
  induction steps with
  | zero => exact ⟨rfl, alike⟩
  | succ steps ih =>
      dsimp only at ih ⊢
      rw [advance_succ_last, advance_succ_last, ih.1]
      exact step_append_right separate library ih.2 _

/-- Two programs in one run as one after the other, when neither jumps into the other and no flush
fails. The second runs on what the first left when the first passes its end; a first that fails or
halts is all that runs. -/
theorem run_append (seen : FlushBlind σ τ) (library : Library) (separate : first.Separate second)
    (store : Store) {host : σ} (steady : seen.Steady host) :
    let whole := new library (first ++ second)
    (∀ between ready, (new library first).Ends store host (.ok .pastEnd) between ready →
      ∀ outcome final sight,
        (∃ after, whole.Ends store host outcome final after ∧ seen.view after = sight) ↔
          ∃ after, (new library second).Ends between ready outcome final after ∧
            seen.view after = sight) ∧
      ∀ outcome final after, outcome ≠ .ok .pastEnd →
        (new library first).Ends store host outcome final after →
        whole.Ends store host outcome final after := by
  intro whole
  refine ⟨fun between ready ends outcome final sight => ?_, fun outcome final after early ends =>
    ends_append_left separate steady early ends⟩
  obtain ⟨passed, before, reached, alike⟩ := run_append_passes separate steady ends
  -- The second run and the whole side by side, from where the second program begins.
  have beside (steps : Nat) :
      (whole.run store host (passed + steps)).1 =
          ((new library second).run between ready steps).1.relocate (first.size + ·) ∧
        seen.Alike ((new library second).run between ready steps).2
          (whole.run store host (passed + steps)).2 := by
    rw [run_add, reached]
    exact advance_append_right separate library alike (.start between) steps
  constructor
  · rintro ⟨after, ⟨steps, ended⟩, rfl⟩
    obtain ⟨same, alike⟩ := beside steps
    -- A run that has finished stays so, however long it took to pass the first program.
    have stays : whole.run store host (passed + steps) = (⟨.finished outcome, final⟩, after) := by
      rw [Nat.add_comm, run_add, ended, advance_finished]
    rw [stays] at same alike
    have finished := (relocate_eq_finished_iff _ _ _ _).mp same.symm
    exact ⟨_, ⟨steps, Prod.ext finished rfl⟩, alike.view⟩
  · rintro ⟨after, ⟨steps, ended⟩, rfl⟩
    obtain ⟨same, alike⟩ := beside steps
    rw [ended] at same alike
    exact ⟨_, ⟨passed + steps, Prod.ext same rfl⟩, alike.view.symm⟩

theorem run_append_countdown :
    let place := Position.start "<input>"
    let first : Program := #[.assign "x" ⟨.integer 1, ⟨.integer, "1", 1, place⟩⟩]
    let second : Program := #[.label "again",
      .compute "x" .sub ⟨.variable "x", ⟨.identifier, "x", 1, place⟩⟩
        ⟨.integer 1, ⟨.integer, "1", 1, place⟩⟩,
      .branch .eq ⟨.variable "x", ⟨.identifier, "x", 1, place⟩⟩
        ⟨.integer 0, ⟨.integer, "0", 1, place⟩⟩ ⟨"again", place⟩]
    let world := World.quiet [] FileTable.empty
    let between := (Store.new 1).assign "x" 1
    let final := ((between.assign "x" 0).assign "x" (-1))
    first.Separate second ∧ world.FlushesSucceed ∧
      (new .standard first).Ends (.new 1) world (.ok .pastEnd) between world.flush.2 ∧
      (new .standard second).Ends between world.flush.2 (.ok .pastEnd) final
        world.flush.2.flush.2 ∧
      ∃ after, (new .standard (first ++ second)).Ends (.new 1) world (.ok .pastEnd) final after ∧
        World.flushBlind.view after = World.flushBlind.view world := by
  have separate : Program.Separate
      #[.assign "x" ⟨.integer 1, ⟨.integer, "1", 1, .start "<input>"⟩⟩]
      #[.label "again",
        .compute "x" .sub ⟨.variable "x", ⟨.identifier, "x", 1, .start "<input>"⟩⟩
          ⟨.integer 1, ⟨.integer, "1", 1, .start "<input>"⟩⟩,
        .branch .eq ⟨.variable "x", ⟨.identifier, "x", 1, .start "<input>"⟩⟩
          ⟨.integer 0, ⟨.integer, "0", 1, .start "<input>"⟩⟩ ⟨"again", .start "<input>"⟩] := by
    refine ⟨?_, ?_⟩ <;> simp [Statement.destination?]
  have steady : (World.quiet [] FileTable.empty).FlushesSucceed := nofun
  refine ⟨separate, steady, ⟨3, by rfl⟩, ⟨9, by rfl⟩, ?_⟩
  have both := (run_append World.flushBlind .standard separate (.new 1) steady).1
  exact (both _ _ ⟨3, by rfl⟩ _ _ _).mpr ⟨_, ⟨9, by rfl⟩, by rfl⟩

end Plan
end LineScript
