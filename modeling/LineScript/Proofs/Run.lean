import LineScript.Execution

/-!
Runs, one transition after the other. What a transition does is said once for each stage; a property
of all runs is then one that transitions keep.
-/

namespace LineScript
namespace Execution

variable {σ : Type} [Host σ]

/-- One transition on a host. -/
def step (plan : Plan) (execution : Execution) (host : σ) : Execution × σ :=
  (transition plan execution).run host

theorem step_past_end {plan : Plan} {pointer : Nat} (missing : plan.program[pointer]? = none)
    (store : Store) (host : σ) :
    step plan ⟨.running pointer, store⟩ host = (⟨.closing (.ok .pastEnd), store⟩, host) := by
  simp only [step, transition, missing]
  rfl

theorem step_statement {plan : Plan} {pointer : Nat} {statement : Statement}
    (present : plan.program[pointer]? = some statement) (store : Store) (host : σ) :
    step plan ⟨.running pointer, store⟩ host =
      let done := (statement.execute plan).exec store host
      (⟨follow pointer done.1.1, done.1.2⟩, done.2) := by
  simp only [step, transition, present, Interaction.run_bind]
  rfl

theorem step_closing (plan : Plan) (outcome : Outcome) (store : Store) (host : σ) :
    step plan ⟨.closing outcome, store⟩ host =
      let flushed := (Command.flush plan.program.lastPosition).exec store host
      (⟨.finished (conclude outcome flushed.1.1), flushed.1.2⟩, flushed.2) := by
  simp only [step, transition, Interaction.run_bind]
  rfl

theorem step_closing_host (plan : Plan) (outcome : Outcome) (store : Store) (host : σ) :
    ∃ final, step plan ⟨.closing outcome, store⟩ host =
      (⟨.finished final, store⟩, (Host.answer .flush host).2) := by
  rw [step_closing, Command.exec_flush]
  obtain ⟨reason | _, after⟩ := Host.answer Request.flush host
  · exact ⟨_, rfl⟩
  · exact ⟨_, rfl⟩

theorem step_running_ne_finished (plan : Plan) (pointer : Nat) (store : Store) (host : σ)
    (outcome : Outcome) :
    (step plan ⟨.running pointer, store⟩ host).1.stage ≠ .finished outcome := by
  cases present : plan.program[pointer]? with
  | none =>
      rw [step_past_end present]
      exact nofun
  | some statement =>
      rw [step_statement present]
      dsimp only
      obtain error | _ | index | _ := ((statement.execute plan).exec store host).1.1 <;> exact nofun

/-- Only a run that has passed the last statement ends there. -/
theorem step_statement_ne_pastEnd {plan : Plan} {pointer : Nat} {statement : Statement}
    (present : plan.program[pointer]? = some statement) (store : Store) (host : σ) :
    (step plan ⟨.running pointer, store⟩ host).1.stage ≠ .closing (.ok .pastEnd) := by
  rw [step_statement present]
  dsimp only
  obtain error | _ | index | _ := ((statement.execute plan).exec store host).1.1 <;> exact nofun

theorem step_finished (plan : Plan) (outcome : Outcome) (store : Store) (host : σ) :
    step plan ⟨.finished outcome, store⟩ host = (⟨.finished outcome, store⟩, host) := rfl

theorem advance_finished (plan : Plan) (fuel : Nat) (outcome : Outcome) (store : Store)
    (host : σ) :
    advance plan fuel ⟨.finished outcome, store⟩ host = (⟨.finished outcome, store⟩, host) := by
  cases fuel <;> rfl

theorem advance_succ (plan : Plan) (fuel : Nat) (execution : Execution) (host : σ) :
    advance plan (fuel + 1) execution host =
      advance plan fuel (step plan execution host).1 (step plan execution host).2 := by
  obtain ⟨stage, store⟩ := execution
  cases stage with
  | running _ | closing _ => rfl
  | finished outcome => rw [step_finished, advance_finished, advance_finished]

/-- The last transition comes after all others. -/
theorem advance_succ_last (plan : Plan) (fuel : Nat) (execution : Execution) (host : σ) :
    advance plan (fuel + 1) execution host =
      step plan (advance plan fuel execution host).1 (advance plan fuel execution host).2 := by
  induction fuel generalizing execution host with
  | zero => exact advance_succ plan 0 execution host
  | succ fuel ih => rw [advance_succ, ih, advance_succ plan fuel execution host]

theorem advance_add (plan : Plan) (first second : Nat) (execution : Execution) (host : σ) :
    advance plan (first + second) execution host =
      advance plan second (advance plan first execution host).1
        (advance plan first execution host).2 := by
  induction first generalizing execution host with
  | zero => rw [Nat.zero_add]; rfl
  | succ first ih => rw [Nat.succ_add, advance_succ, advance_succ, ih]

/-- The statement that a run stands at, with its index. -/
def current? (plan : Plan) (execution : Execution) : Option (Nat × Statement) :=
  match execution.stage with
  | .running pointer => plan.program[pointer]?.map fun statement => (pointer, statement)
  | _ => none

theorem current?_running (plan : Plan) (pointer : Nat) (store : Store) :
    current? plan ⟨.running pointer, store⟩ =
      plan.program[pointer]?.map fun statement => (pointer, statement) := rfl

theorem current?_eq_some_iff {plan : Plan} {execution : Execution} {pointer : Nat}
    {statement : Statement} : current? plan execution = some (pointer, statement) ↔
      execution.stage = .running pointer ∧ plan.program[pointer]? = some statement := by
  obtain ⟨stage, store⟩ := execution
  cases stage with
  | running other =>
      simp only [current?_running, Option.map_eq_some_iff, Prod.mk.injEq, Stage.running.injEq]
      constructor
      · rintro ⟨_, present, rfl, rfl⟩
        exact ⟨rfl, present⟩
      · rintro ⟨rfl, present⟩
        exact ⟨statement, present, rfl, rfl⟩
  | closing _ | finished _ => exact ⟨nofun, nofun⟩

/-- The run goes on from here, and the statement that it stands at, if any, succeeds. -/
def Succeeds (plan : Plan) (execution : Execution) (host : σ) : Prop :=
  ∃ pointer, execution.stage = .running pointer ∧
    ∀ statement, plan.program[pointer]? = some statement →
      ∃ succession, ((statement.execute plan).exec execution.store host).1.1 = .ok succession

/-- The next transition fails: the statement that the run stands at does, or the last flush. -/
inductive Fails (plan : Plan) (error : RunError) : Execution → σ → Prop
  | statement {pointer : Nat} {statement : Statement} {store : Store} {host : σ}
      (present : plan.program[pointer]? = some statement)
      (failed : ((statement.execute plan).exec store host).1.1 = .error error) :
      Fails plan error ⟨.running pointer, store⟩ host
  | flush {ending : Ending} {store : Store} {host : σ}
      (failed : ((Command.flush plan.program.lastPosition).exec store host).1.1 = .error error) :
      Fails plan error ⟨.closing (.ok ending), store⟩ host

theorem follow_eq_failed_iff (pointer : Nat) (result : Except RunError Succession)
    (error : RunError) :
    follow pointer result = .closing (.error error) ↔ result = .error error := by
  obtain other | _ | index | _ := result <;> simp [follow]

theorem outcome?_eq_some_iff {execution : Execution} {outcome : Outcome} :
    execution.outcome? = some outcome ↔ execution.stage = .finished outcome := by
  obtain ⟨stage, store⟩ := execution
  cases stage with
  | running _ | closing _ => exact ⟨nofun, nofun⟩
  | finished ended =>
      refine ⟨fun same => ?_, fun same => ?_⟩
      · cases same
        rfl
      · cases same
        rfl

end Execution

namespace Plan

variable {σ : Type} [Host σ]

/-- How far a run from the first statement has come after a number of transitions. -/
def run (plan : Plan) (store : Store) (host : σ) (steps : Nat) : Execution × σ :=
  Execution.advance plan steps (.start store) host

theorem run_succ (plan : Plan) (store : Store) (host : σ) (steps : Nat) :
    plan.run store host (steps + 1) =
      Execution.step plan (plan.run store host steps).1 (plan.run store host steps).2 :=
  Execution.advance_succ_last plan steps (.start store) host

theorem run_add (plan : Plan) (store : Store) (host : σ) (first second : Nat) :
    plan.run store host (first + second) =
      Execution.advance plan second (plan.run store host first).1 (plan.run store host first).2 :=
  Execution.advance_add plan first second (.start store) host

/-- A run that has finished was closing before. -/
theorem closing_of_finished {plan : Plan} {store final : Store} {host after : σ} {steps : Nat}
    {outcome : Outcome} (ended : plan.run store host steps = (⟨.finished outcome, final⟩, after)) :
    ∃ earlier ending ready, plan.run store host earlier = (⟨.closing ending, final⟩, ready) ∧
      Execution.step plan ⟨.closing ending, final⟩ ready = (⟨.finished outcome, final⟩, after) := by
  induction steps with
  | zero => cases ended
  | succ steps ih =>
      rw [run_succ] at ended
      rcases before : plan.run store host steps with ⟨⟨stage, left⟩, ready⟩
      rw [before] at ended
      cases stage with
      | running pointer =>
          have stage := congrArg (fun done => done.1.stage) ended
          exact absurd stage (Execution.step_running_ne_finished plan pointer left ready outcome)
      | closing ending =>
          obtain ⟨last, closed⟩ := Execution.step_closing_host plan ending left ready
          have same : left = final := by
            have stores := congrArg (fun done => done.1.store) (closed.symm.trans ended)
            exact stores
          subst same
          exact ⟨steps, ending, ready, before, ended⟩
      | finished other => exact ih (before.trans ended)

/-- A run that is closing stood at a statement, or behind the last one, just before. -/
theorem running_of_closing {plan : Plan} {store left : Store} {host ready : σ} {steps : Nat}
    {ending : Outcome} (closes : plan.run store host steps = (⟨.closing ending, left⟩, ready)) :
    ∃ earlier pointer kept before,
      plan.run store host earlier = (⟨.running pointer, kept⟩, before) ∧
      Execution.step plan ⟨.running pointer, kept⟩ before = (⟨.closing ending, left⟩, ready) := by
  cases steps with
  | zero => cases closes
  | succ steps =>
      rw [run_succ] at closes
      rcases reached : plan.run store host steps with ⟨⟨stage, kept⟩, before⟩
      rw [reached] at closes
      cases stage with
      | running pointer => exact ⟨steps, pointer, kept, before, reached, closes⟩
      | closing other =>
          obtain ⟨last, closed⟩ := Execution.step_closing_host plan other kept before
          have stages := congrArg (fun done => done.1.stage) (closed.symm.trans closes)
          cases stages
      | finished other => cases closes

/-- A run that has failed came to a transition that fails, with the same error. -/
theorem fails_of_outcome? {plan : Plan} {store : Store} {host : σ} {fuel : Nat} {error : RunError}
    (failed : (plan.run store host fuel).1.outcome? = some (.error error)) :
    ∃ steps, Execution.Fails plan error (plan.run store host steps).1
      (plan.run store host steps).2 := by
  rw [Execution.outcome?_eq_some_iff] at failed
  rcases ended : plan.run store host fuel with ⟨⟨stage, final⟩, after⟩
  rw [ended] at failed
  obtain rfl : stage = .finished (.error error) := failed
  obtain ⟨steps, ending, ready, closes, last⟩ := closing_of_finished ended
  have concluded : Execution.conclude ending
      ((Command.flush plan.program.lastPosition).exec final ready).1.1 = .error error := by
    rw [Execution.step_closing] at last
    exact Stage.finished.inj (congrArg (fun done => done.1.stage) last)
  cases ending with
  | ok ending =>
      refine ⟨steps, ?_⟩
      rw [closes]
      refine .flush ?_
      cases flushed : ((Command.flush plan.program.lastPosition).exec final ready).1.1 with
      | ok _ =>
          rw [flushed] at concluded
          cases concluded
      | error other =>
          rw [flushed] at concluded
          cases concluded
          rfl
  | error first =>
      obtain rfl : first = error := Except.error.inj concluded
      obtain ⟨steps, pointer, kept, before, reached, step⟩ := running_of_closing closes
      refine ⟨steps, ?_⟩
      rw [reached]
      cases present : plan.program[pointer]? with
      | none =>
          rw [Execution.step_past_end present] at step
          cases step
      | some statement =>
          rw [Execution.step_statement present] at step
          have stage := congrArg (fun done => done.1.stage) step
          exact .statement present ((Execution.follow_eq_failed_iff _ _ _).mp stage)

/-- The statements that a run has carried out after a number of transitions, each with its index. -/
def trace (plan : Plan) (store : Store) (host : σ) : Nat → List (Nat × Statement)
  | 0 => []
  | steps + 1 =>
      plan.trace store host steps ++ ((plan.run store host steps).1.current? plan).toList

/-- The run finishes, with this outcome, and leaves this store and host. -/
def Ends (plan : Plan) (store : Store) (host : σ) (outcome : Outcome) (final : Store)
    (after : σ) : Prop :=
  ∃ steps, plan.run store host steps = (⟨.finished outcome, final⟩, after)

end Plan
end LineScript
