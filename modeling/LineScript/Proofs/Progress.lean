import LineScript.Proofs.Run
import LineScript.Proofs.WellFormed
import LineScript.World

/-!
A run of a well-formed program can fail only over the values that it computes or over its host.
Variables are never removed, which is what carries well-formedness through a run.
-/

namespace LineScript

/-- What was carried out kept all variables, and failed only as is to be expected. -/
structure Progresses {σ α : Type} (before : Store) (done : (Except RunError α × Store) × σ) :
    Prop where
  permitted : Permitted done.1.1
  keeps : before.Keeps done.1.2

variable {σ : Type} [Host σ]

theorem Effect.perform_progresses (effect : Effect) (store : Store) (host : σ) :
    Progresses store (effect.perform.exec store host) := by
  have same := Store.Keeps.refl store
  have performed := effect.perform_performed store host
  generalize effect.perform.exec store host = done at performed ⊢
  cases performed with
  | nothing | poked _ _ | written _ | saved _ => exact ⟨.ok (), same⟩
  | assigned target value => exact ⟨.ok (), .assign store target value⟩
  | taken _ _ => exact ⟨.ok (), .assign store _ _⟩
  | loaded _ _ => exact ⟨.ok (), .assign (store.place _ _) _ _⟩
  | unwritten _ | unflushed _ | exhausted _ _ | unread _ _ | overfull _ _ | unloaded _
  | unsaved _ => exact ⟨.error trivial, same⟩

theorem Statement.callsStandard_of_wellFormed {program : Program} {library : Library}
    {store : Store} (wellFormed : program.WellFormed library store) {statement : Statement}
    (member : statement ∈ program) : statement.CallsStandard library := by
  cases statement with
  | call name args position =>
      obtain ⟨builtin, standard, found, _⟩ := wellFormed.calls _ member
      intro other found'
      rw [found] at found'
      cases found'
      exact standard
  | _ => exact trivial

theorem Statement.execute_progresses {program : Program} {library : Library} {store : Store}
    (wellFormed : program.WellFormed library store) {statement : Statement}
    (member : statement ∈ program) (host : σ) :
    Progresses store ((statement.execute (.new library program)).exec store host) := by
  have calls : statement.CallsStandard (Plan.new library program).library :=
    callsStandard_of_wellFormed wellFormed member
  have executed := execute_executed calls store host
  generalize (statement.execute (.new library program)).exec store host = result at executed ⊢
  cases executed with
  | rejected checks =>
      have permitted := statement.effect_permitted wellFormed member
      exact ⟨.error (permitted _ checks), .refl store⟩
  | failed effect checks performed =>
      obtain ⟨permitted, keeps⟩ := effect.perform_progresses store host
      rw [performed] at permitted keeps
      exact ⟨.error (permitted _ rfl), keeps⟩
  | done effect checks performed =>
      have keeps := (effect.perform_progresses store host).keeps
      rw [performed] at keeps
      exact ⟨.ok _, keeps⟩

namespace Execution

/-- What holds all through a run from `start`: its variables are still there, and it has failed, if
it has, only as is to be expected. -/
structure Healthy (start : Store) (execution : Execution) : Prop where
  keeps : start.Keeps execution.store
  closing : ∀ outcome, execution.stage = .closing outcome → Permitted outcome
  finished : ∀ outcome, execution.stage = .finished outcome → Permitted outcome

theorem healthy_follow {start store : Store} (keeps : start.Keeps store) (pointer : Nat)
    {result : Except RunError Succession} (permitted : Permitted result) :
    Healthy start ⟨follow pointer result, store⟩ := by
  refine ⟨keeps, fun outcome closes => ?_, fun outcome ends => ?_⟩
  · obtain error | succession := result
    · cases closes
      exact .error (permitted error rfl)
    · obtain _ | index | _ := succession
      · cases closes
      · cases closes
      · cases closes
        exact .ok _
  · obtain error | succession := result
    · cases ends
    · obtain _ | index | _ := succession <;> cases ends

theorem conclude_permitted {outcome : Outcome} {flushed : Except RunError Unit}
    (permitted : Permitted outcome) (permitted' : Permitted flushed) :
    Permitted (conclude outcome flushed) := by
  obtain error | ending := outcome
  · exact permitted
  · obtain error | _ := flushed
    · exact .error (permitted' error rfl)
    · exact .ok _

theorem step_healthy {program : Program} {library : Library} {start : Store}
    (wellFormed : program.WellFormed library start) {execution : Execution}
    (healthy : execution.Healthy start) (host : σ) :
    (step (.new library program) execution host).1.Healthy start := by
  obtain ⟨stage, store⟩ := execution
  obtain ⟨keeps, closing, finished⟩ := healthy
  cases stage with
  | running pointer =>
      cases present : (Plan.new library program).program[pointer]? with
      | none =>
          rw [step_past_end present]
          exact ⟨keeps, fun outcome closes => by cases closes; exact .ok _, nofun⟩
      | some statement =>
          have member : statement ∈ program := Array.mem_of_getElem? present
          -- What is well formed at the start still is, because the store keeps its variables.
          have progresses := statement.execute_progresses (wellFormed.keeps keeps) member host
          rw [step_statement present]
          exact healthy_follow (keeps.trans progresses.keeps) pointer progresses.permitted
  | closing outcome =>
      have permitted := closing outcome rfl
      rw [step_closing, Command.exec_flush]
      obtain ⟨reason | _, after⟩ := Host.answer Request.flush host
      · refine ⟨keeps, nofun, fun outcome ends => ?_⟩
        cases ends
        exact conclude_permitted permitted (.error trivial)
      · refine ⟨keeps, nofun, fun outcome ends => ?_⟩
        cases ends
        exact conclude_permitted permitted (.ok ())
  | finished outcome => exact ⟨keeps, closing, finished⟩

end Execution

/-- A run of a well-formed program can fail only over its values and over its host. -/
theorem Program.run_failure_expected {program : Program} {library : Library} {store : Store}
    (wellFormed : program.WellFormed library store) (host : σ) (steps : Nat) {error : RunError}
    (failed : ((Plan.new library program).run store host steps).1.outcome? = some (.error error)) :
    error.fault.Expected := by
  have healthy : ((Plan.new library program).run store host steps).1.Healthy store := by
    clear failed
    induction steps with
    | zero => exact ⟨.refl store, nofun, nofun⟩
    | succ steps ih =>
        rw [Plan.run_succ]
        exact Execution.step_healthy wellFormed ih _
  exact healthy.finished (.error error) (Execution.outcome?_eq_some_iff.mp failed) error rfl

theorem Program.run_failure_expected_input :
    let place := Position.start "<input>"
    let program : Program := #[.label "again",
      .call "input" [⟨.variable "x", ⟨.identifier, "x", 1, place⟩⟩] place, .jump ⟨"again", place⟩]
    let world := World.quiet [] FileTable.empty
    let error : RunError := ⟨.endOfInput, place⟩
    program.WellFormed .standard (.new 1) ∧
      ((Plan.new .standard program).run (.new 1) world 4).1.outcome? = some (.error error) ∧
      error.fault.Expected := by
  intro place program world error
  have found : Library.standard.find? "input" = some ⟨.fixed 1, false, Builtin.takeByte⟩ := by rfl
  have wellFormed : program.WellFormed .standard (.new 1) := by
    refine ⟨?_, ?_, ?_, ?_⟩
    · simp [program, Statement.destination?]
    · simp [program, Statement.parts, Builtin.roles, Role.Suits]
    · simp [program, Statement.CallsFully, Builtin.roles, found, Builtin.standard]
    · simp [program, Statement.parts, Builtin.roles, Role.reads]
  have failed : ((Plan.new .standard program).run (.new 1) world 4).1.outcome? =
      some (.error error) := by rfl
  exact ⟨wellFormed, failed, Program.run_failure_expected wellFormed world 4 failed⟩

end LineScript
