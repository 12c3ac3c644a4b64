import LineScript.Proofs.Labels
import LineScript.Proofs.Run

/-!
Statements in another place. A statement depends on where it stands only through the index that
follows it and the indices that its labels lead to, so in a program that has it elsewhere, with its
labels moved along, it does the same and goes on at the place that belongs to the next one.
-/

namespace LineScript

def Succession.relocate (place : Nat → Nat) : Succession → Succession
  | .proceed => .proceed
  | .jump index => .jump (place index)
  | .stop => .stop

def Stage.relocate (place : Nat → Nat) : Stage → Stage
  | .running pointer => .running (place pointer)
  | .closing outcome => .closing outcome
  | .finished outcome => .finished outcome

def Execution.relocate (place : Nat → Nat) (execution : Execution) : Execution :=
  ⟨execution.stage.relocate place, execution.store⟩

/-- What stands at `pointer` stands at its place in the other plan, and so do what follows it and
what it jumps to. -/
structure Plan.Relocates (plan other : Plan) (place : Nat → Nat) (pointer : Nat) : Prop where
  library : other.library = plan.library
  statement : other.program[place pointer]? = plan.program[pointer]?
  next : place (pointer + 1) = place pointer + 1
  labels : ∀ statement, plan.program[pointer]? = some statement →
    ∀ destination ∈ statement.destination?,
      other.labels.locate destination = (plan.labels.locate destination).map place

theorem Execution.relocate_eq_finished_iff (place : Nat → Nat) (execution : Execution)
    (outcome : Outcome) (final : Store) :
    execution.relocate place = ⟨.finished outcome, final⟩ ↔
      execution = ⟨.finished outcome, final⟩ := by
  obtain ⟨stage, store⟩ := execution
  cases stage with
  | running _ | closing _ => simp [relocate, Stage.relocate]
  | finished _ => rfl

theorem Command.exec_map {σ α β : Type} [Host σ] (f : α → β) (command : Command α) (store : Store)
    (host : σ) :
    (f <$> command).exec store host =
      let done := command.exec store host
      ((done.1.1.map f, done.1.2), done.2) := by
  rw [map_eq_pure_bind, exec_bind]
  obtain ⟨⟨error | value, after⟩, ready⟩ := command.exec store host <;> rfl

theorem Command.ofExcept_map {α β : Type} (f : α → β) (result : Except RunError α) :
    (ofExcept (result.map f) : Command β) = f <$> ofExcept result := by
  cases result <;> rfl

theorem Statement.jump_relocate {table other : LabelTable} {place : Nat → Nat}
    {destination : Destination}
    (located : other.locate destination = (table.locate destination).map place) :
    (do return .jump (← ofExcept (other.locate destination)) : Command Succession) =
      Succession.relocate place <$>
        (do return .jump (← ofExcept (table.locate destination))) := by
  rw [located, Command.ofExcept_map, map_bind, bind_map_left]
  rfl

theorem Statement.execute_relocate {plan other : Plan} {place : Nat → Nat} {statement : Statement}
    (library : other.library = plan.library)
    (labels : ∀ destination ∈ statement.destination?,
      other.labels.locate destination = (plan.labels.locate destination).map place) :
    statement.execute other = Succession.relocate place <$> statement.execute plan := by
  cases statement with
  | assign target value =>
      rw [execute, execute, map_bind]
      simp only [map_bind, map_pure]
      rfl
  | compute target op lhs rhs =>
      simp only [execute, map_bind, map_pure]
      rfl
  | branch op lhs rhs destination =>
      rw [execute, execute, map_bind]
      congr! 2 with left
      rw [map_bind]
      congr! 2 with right
      by_cases holds : op.eval left right
      · rw [if_pos holds, if_pos holds]
        exact jump_relocate (labels destination rfl)
      · rw [if_neg holds, if_neg holds, map_pure]
        rfl
  | label name => rfl
  | jump destination => exact jump_relocate (labels destination rfl)
  | halt => rfl
  | call name args position =>
      rw [execute, execute, library, map_bind]
      rfl

namespace Execution

variable {σ : Type} [Host σ] {plan other : Plan} {place : Nat → Nat}

theorem follow_relocate {pointer : Nat} (next : place (pointer + 1) = place pointer + 1)
    (result : Except RunError Succession) :
    follow (place pointer) (result.map (Succession.relocate place)) =
      (follow pointer result).relocate place := by
  obtain error | succession := result
  · rfl
  · cases succession with
    | proceed => exact congrArg Stage.running next.symm
    | jump index => rfl
    | stop => rfl

theorem step_relocate {pointer : Nat} (relocates : plan.Relocates other place pointer)
    (store : Store) (host : σ) :
    step other ⟨.running (place pointer), store⟩ host =
      let after := step plan ⟨.running pointer, store⟩ host
      (after.1.relocate place, after.2) := by
  have same := relocates.statement
  cases present : plan.program[pointer]? with
  | none =>
      rw [present] at same
      rw [step_past_end same, step_past_end present]
      rfl
  | some statement =>
      rw [present] at same
      rw [step_statement same, step_statement present,
        statement.execute_relocate relocates.library (relocates.labels statement present),
        Command.exec_map]
      dsimp only
      rw [follow_relocate relocates.next]
      rfl

theorem current?_relocate {pointer : Nat} (relocates : plan.Relocates other place pointer)
    (store : Store) :
    current? other ⟨.running (place pointer), store⟩ =
      (current? plan ⟨.running pointer, store⟩).map fun entry => (place entry.1, entry.2) := by
  rw [current?_running, current?_running, relocates.statement, Option.map_map]
  rfl

end Execution
end LineScript
