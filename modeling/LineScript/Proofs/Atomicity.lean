import LineScript.Proofs.Execute
import LineScript.Proofs.Ledger
import LineScript.Proofs.Run

/-!
A statement succeeds or changes nothing. What a failing statement can leave behind is a front part
of its own output, if that is what failed, and the loss of the input that it tried to read. A
failing run therefore ends with the store and the files that the last successful statement left.
-/

namespace LineScript

namespace Ledger

variable {σ ι φ : Type} [Host σ]

/-- What a failing statement leaves of its host. `bytes` is what the statement writes. -/
structure Spared (ledger : Ledger σ ι φ) (before : σ) (error : RunError) (bytes : Bytes)
    (after : σ) : Prop where
  files : ledger.files after = ledger.files before
  output : ledger.written after = ledger.written before ∨
    ∃ reason front, error.fault = .output reason ∧ front <+: bytes ∧
      ledger.written after = ledger.written before ++ front
  input : ledger.input after = ledger.input before ∨ error.fault = .endOfInput ∨
    ∃ reason, error.fault = .input reason

/-- What was carried out wrote its bytes, or it failed and changed nothing. -/
def Atomic (ledger : Ledger σ ι φ) (bytes : Bytes) (store : Store) (host : σ) {α : Type} :
    (Except RunError α × Store) × σ → Prop
  | ((.ok _, _), after) => ledger.written after = ledger.written host ++ bytes
  | ((.error error, left), after) => left = store ∧ ledger.Spared host error bytes after

theorem atomic_ok (ledger : Ledger σ ι φ) {host after : σ}
    (same : ledger.written after = ledger.written host) (store left : Store) {α : Type}
    (value : α) : ledger.Atomic [] store host ((.ok value, left), after) := by
  change ledger.written after = ledger.written host ++ []
  rw [same, List.append_nil]

theorem atomic_error (ledger : Ledger σ ι φ) {host after : σ}
    (files : ledger.files after = ledger.files host)
    (written : ledger.written after = ledger.written host) {error : RunError}
    (input : ledger.input after = ledger.input host ∨ error.fault = .endOfInput ∨
      ∃ reason, error.fault = .input reason)
    (bytes : Bytes) (store : Store) {α : Type} :
    ledger.Atomic bytes store host (((.error error : Except RunError α), store), after) :=
  ⟨rfl, files, .inl written, input⟩

end Ledger

namespace Effect

variable {σ ι φ : Type} [Host σ]

/-- The bytes that an effect writes. -/
def bytes : Effect → Bytes
  | .write bytes _ => bytes
  | _ => []

theorem perform_atomic (ledger : Ledger σ ι φ) (effect : Effect) (store : Store) (host : σ) :
    ledger.Atomic effect.bytes store host (effect.perform.exec store host) := by
  have performed := effect.perform_performed store host
  generalize effect.perform.exec store host = done at performed
  cases performed with
  | nothing | assigned _ _ | poked _ _ => exact ledger.atomic_ok rfl store _ ()
  | @written bytes call after wrote =>
      obtain ⟨front, _, grown, whole⟩ := ledger.written_write bytes host
      rw [wrote] at grown whole
      change ledger.written after = ledger.written host ++ bytes
      rw [grown, whole rfl]
  | @unwritten bytes call reason after wrote =>
      obtain ⟨front, part, grown, _⟩ := ledger.written_write bytes host
      rw [wrote] at grown
      exact ⟨rfl, ledger.files_eq wrote nofun, .inr ⟨reason, front, rfl, part, grown⟩,
        .inl (ledger.input_eq wrote nofun)⟩
  | unflushed flushed =>
      exact ledger.atomic_error (ledger.files_eq flushed nofun) (ledger.written_eq flushed nofun)
        (.inl (ledger.input_eq flushed nofun)) [] store
  | taken flushed read =>
      have written := ledger.written_eq flushed nofun
      exact ledger.atomic_ok ((ledger.written_eq read nofun).trans written) store _ ()
  | exhausted flushed read =>
      have files := ledger.files_eq flushed nofun
      have written := ledger.written_eq flushed nofun
      exact ledger.atomic_error ((ledger.files_eq read nofun).trans files)
        ((ledger.written_eq read nofun).trans written) (.inr (.inl rfl)) [] store
  | @unread _ _ reason _ _ flushed read =>
      have files := ledger.files_eq flushed nofun
      have written := ledger.written_eq flushed nofun
      exact ledger.atomic_error ((ledger.files_eq read nofun).trans files)
        ((ledger.written_eq read nofun).trans written) (.inr (.inr ⟨reason, rfl⟩)) [] store
  | loaded read fits => exact ledger.atomic_ok (ledger.written_eq read nofun) store _ ()
  | overfull read _ | unloaded read =>
      exact ledger.atomic_error (ledger.files_eq read nofun) (ledger.written_eq read nofun)
        (.inl (ledger.input_eq read nofun)) [] store
  | saved wrote => exact ledger.atomic_ok (ledger.written_eq wrote nofun) store _ ()
  | @unsaved path bytes _ reason _ wrote =>
      have files := ledger.files_failed path bytes host reason
      rw [wrote] at files
      exact ledger.atomic_error (files rfl) (ledger.written_eq wrote nofun)
        (.inl (ledger.input_eq wrote nofun)) [] store

end Effect

namespace Statement

variable {σ ι φ : Type} [Host σ]

/-- The bytes that a statement writes when it succeeds. -/
def bytes (plan : Plan) (store : Store) (statement : Statement) : Bytes :=
  match statement.effect plan store with
  | .ok (effect, _) => effect.bytes
  | .error _ => []

theorem execute_atomic (ledger : Ledger σ ι φ) {plan : Plan} {statement : Statement}
    (calls : statement.CallsStandard plan.library) (store : Store) (host : σ) :
    ledger.Atomic (statement.bytes plan store) store host
      ((statement.execute plan).exec store host) := by
  have executed := execute_executed calls store host
  generalize (statement.execute plan).exec store host = result at executed
  cases executed with
  | rejected checks => exact ledger.atomic_error rfl rfl (.inl rfl) _ store
  | failed effect checks performed =>
      have atomic := effect.perform_atomic ledger store host
      rw [performed] at atomic
      rw [bytes, checks]
      exact atomic
  | done effect checks performed =>
      have atomic := effect.perform_atomic ledger store host
      rw [performed] at atomic
      rw [bytes, checks]
      exact atomic

end Statement

namespace Execution

variable {σ ι φ : Type} [Host σ]

/-- After `steps` transitions, all of them successful, the run fails, and what it has failed with
after `fuel` transitions is what it had then. -/
structure FailsAt (ledger : Ledger σ ι φ) (plan : Plan) (error : RunError) (fuel : Nat)
    (execution : Execution) (host : σ) (steps : Nat) : Prop where
  within : steps < fuel
  succeeded : ∀ earlier < steps, Succeeds plan (advance plan earlier execution host).1
    (advance plan earlier execution host).2
  fails : Fails plan error (advance plan steps execution host).1
    (advance plan steps execution host).2
  store : (advance plan fuel execution host).1.store = (advance plan steps execution host).1.store
  files : ledger.files (advance plan fuel execution host).2 =
    ledger.files (advance plan steps execution host).2

theorem FailsAt.succ {ledger : Ledger σ ι φ} {plan : Plan} {error : RunError} {fuel : Nat}
    {execution : Execution} {host : σ} {steps : Nat} (first : Succeeds plan execution host)
    (rest : FailsAt ledger plan error fuel (step plan execution host).1
      (step plan execution host).2 steps) :
    FailsAt ledger plan error (fuel + 1) execution host (steps + 1) := by
  obtain ⟨within, succeeded, fails, store, files⟩ := rest
  refine ⟨Nat.succ_lt_succ within, fun earlier below => ?_, ?_, ?_, ?_⟩
  · cases earlier with
    | zero => exact first
    | succ earlier =>
        rw [advance_succ]
        exact succeeded earlier (Nat.lt_of_succ_lt_succ below)
  · rw [advance_succ]
    exact fails
  · rw [advance_succ, advance_succ]
    exact store
  · rw [advance_succ, advance_succ]
    exact files

theorem written_advance_le (ledger : Ledger σ ι φ) (plan : Plan) (execution : Execution)
    (host : σ) {earlier later : Nat} (order : earlier ≤ later) :
    ledger.written (advance plan earlier execution host).2 <+:
      ledger.written (advance plan later execution host).2 := by
  induction order with
  | refl => exact List.prefix_rfl
  | step _ ih =>
      rw [advance_succ_last]
      exact ih.trans (ledger.written_run _ _)

/-- Once a run is closing only the last flush is left. -/
theorem advance_closing (ledger : Ledger σ ι φ) (plan : Plan) (fuel : Nat) (outcome : Outcome)
    (store : Store) (host : σ) :
    (advance plan fuel ⟨.closing outcome, store⟩ host).1.store = store ∧
      ledger.files (advance plan fuel ⟨.closing outcome, store⟩ host).2 = ledger.files host := by
  cases fuel with
  | zero => exact ⟨rfl, rfl⟩
  | succ fuel =>
      obtain ⟨final, flushed⟩ := step_closing_host plan outcome store host
      rw [advance_succ, flushed, advance_finished]
      exact ⟨rfl, ledger.files_kept .flush host nofun⟩

theorem outcome?_advance_error {plan : Plan} {fuel : Nat} {first error : RunError}
    {store : Store} {host : σ}
    (failed : (advance plan fuel ⟨.closing (.error first), store⟩ host).1.outcome? =
      some (.error error)) : first = error := by
  cases fuel with
  | zero => cases failed
  | succ fuel =>
      rw [advance_succ, step_closing, advance_finished] at failed
      cases failed
      rfl

theorem failsAt_closing (ledger : Ledger σ ι φ) {plan : Plan} {fuel : Nat} {ending : Ending}
    {store : Store} {host : σ} {error : RunError}
    (failed : (advance plan fuel ⟨.closing (.ok ending), store⟩ host).1.outcome? =
      some (.error error)) :
    FailsAt ledger plan error fuel ⟨.closing (.ok ending), store⟩ host 0 := by
  obtain ⟨kept, files⟩ := advance_closing ledger plan fuel (.ok ending) store host
  cases fuel with
  | zero => cases failed
  | succ fuel =>
      rw [advance_succ, step_closing, advance_finished] at failed
      have fails : ((Command.flush plan.program.lastPosition).exec store host).1.1 =
          .error error := by
        simp only [outcome?, Option.some.injEq] at failed
        generalize ((Command.flush plan.program.lastPosition).exec store host).1.1 = flushed
          at failed ⊢
        cases flushed with
        | ok _ => cases failed
        | error reason =>
            cases failed
            rfl
      exact ⟨Nat.succ_pos fuel, nofun, .flush fails, kept, files⟩

theorem failsAt_statement (ledger : Ledger σ ι φ) {plan : Plan} {fuel pointer : Nat}
    {statement : Statement} {store : Store} {host : σ} {first error : RunError}
    (calls : statement.CallsStandard plan.library)
    (present : plan.program[pointer]? = some statement)
    (fails : ((statement.execute plan).exec store host).1.1 = .error first)
    (failed : (advance plan (fuel + 1) ⟨.running pointer, store⟩ host).1.outcome? =
      some (.error error)) :
    FailsAt ledger plan error (fuel + 1) ⟨.running pointer, store⟩ host 0 := by
  have atomic := statement.execute_atomic ledger calls store host
  have stopped := step_statement present store host
  rw [advance_succ] at failed
  generalize done : (statement.execute plan).exec store host = result
    at atomic fails stopped
  obtain ⟨⟨outcome, left⟩, after⟩ := result
  cases fails
  rw [stopped] at failed
  obtain ⟨rfl, spared⟩ := atomic
  obtain ⟨kept, files⟩ := advance_closing ledger plan fuel (.error first) left after
  cases outcome?_advance_error failed
  have fails : ((statement.execute plan).exec left host).1.1 = .error first := by rw [done]
  refine ⟨Nat.succ_pos fuel, nofun, .statement present fails, ?_, ?_⟩
  · rw [advance_succ, stopped]
    exact kept
  · rw [advance_succ, stopped]
    exact files.trans spared.files

/-- A run that has not failed yet: it stands at a statement or closes without an error. -/
def Sound (execution : Execution) : Prop :=
  (∃ pointer, execution.stage = .running pointer) ∨
    ∃ ending, execution.stage = .closing (.ok ending)

theorem sound_follow (pointer : Nat) (succession : Succession) (store : Store) :
    Sound ⟨follow pointer (.ok succession), store⟩ := by
  cases succession with
  | proceed => exact .inl ⟨_, rfl⟩
  | jump index => exact .inl ⟨_, rfl⟩
  | stop => exact .inr ⟨_, rfl⟩

theorem failsAt_of_outcome? (ledger : Ledger σ ι φ) {plan : Plan} (calls : plan.CallsStandard)
    {fuel : Nat} {execution : Execution} {host : σ} {error : RunError} (sound : execution.Sound)
    (failed : (advance plan fuel execution host).1.outcome? = some (.error error)) :
    ∃ steps, FailsAt ledger plan error fuel execution host steps := by
  -- A transition that succeeds only moves the failure one step further away.
  induction fuel generalizing execution host with
  | zero =>
      obtain ⟨stage, store⟩ := execution
      obtain ⟨pointer, rfl⟩ | ⟨ending, rfl⟩ := sound
      · cases failed
      · cases failed
  | succ fuel ih =>
      obtain ⟨stage, store⟩ := execution
      obtain ⟨pointer, rfl⟩ | ⟨ending, rfl⟩ := sound
      · cases present : plan.program[pointer]? with
        | none =>
            have first : Succeeds plan ⟨.running pointer, store⟩ host :=
              ⟨pointer, rfl, fun statement found => by rw [present] at found; cases found⟩
            rw [advance_succ] at failed
            have closes := step_past_end present store host
            obtain ⟨steps, rest⟩ := ih (.inr ⟨.pastEnd, by rw [closes]⟩) failed
            exact ⟨steps + 1, rest.succ first⟩
        | some statement =>
            cases result : ((statement.execute plan).exec store host).1.1 with
            | error first =>
                have member := calls statement (Array.mem_of_getElem? present)
                exact ⟨0, failsAt_statement ledger member present result failed⟩
            | ok succession =>
                have first : Succeeds plan ⟨.running pointer, store⟩ host :=
                  ⟨pointer, rfl, fun statement found => by
                    rw [present] at found
                    cases found
                    exact ⟨succession, result⟩⟩
                have goes := step_statement present store host
                rw [advance_succ] at failed
                have sound : (step plan ⟨.running pointer, store⟩ host).1.Sound := by
                  rw [goes]
                  dsimp only
                  rw [result]
                  exact sound_follow pointer succession _
                obtain ⟨steps, rest⟩ := ih sound failed
                exact ⟨steps + 1, rest.succ first⟩
      · exact ⟨0, failsAt_closing ledger failed⟩

end Execution

/-- A statement that fails leaves the store and the files alone, and a run that fails ends with what
its last successful statement left. -/
theorem Plan.failure_changes_nothing {σ ι φ : Type} [Host σ] (ledger : Ledger σ ι φ) {plan : Plan}
    (calls : plan.CallsStandard) :
    (∀ statement ∈ plan.program, ∀ (store : Store) (host : σ),
      ledger.Atomic (statement.bytes plan store) store host
        ((statement.execute plan).exec store host)) ∧
    ∀ (store : Store) (host : σ) (fuel : Nat) (error : RunError),
      (plan.run store host fuel).1.outcome? = some (.error error) →
      (∃ steps, Execution.FailsAt ledger plan error fuel (.start store) host steps) ∧
      ∀ earlier ≤ fuel, ledger.written (plan.run store host earlier).2 <+:
        ledger.written (plan.run store host fuel).2 := by
  refine ⟨fun statement member store host => ?_, fun store host fuel error failed => ⟨?_, ?_⟩⟩
  · exact statement.execute_atomic ledger (calls statement member) store host
  · exact Execution.failsAt_of_outcome? ledger calls (.inl ⟨0, rfl⟩) failed
  · exact fun earlier order => Execution.written_advance_le ledger plan _ host order

theorem Plan.failure_changes_nothing_input :
    let place := Position.start "<input>"
    let plan := Plan.new .standard
      #[.assign "x" ⟨.integer 5, ⟨.integer, "5", 1, place⟩⟩,
        .call "input" [⟨.variable "y", ⟨.identifier, "y", 1, place⟩⟩] place]
    let world := World.quiet [] FileTable.empty
    plan.CallsStandard ∧
      (plan.run (.new 1) world 4).1.outcome? = some (.error ⟨.endOfInput, place⟩) ∧
      ∃ steps, Execution.FailsAt World.ledger plan ⟨.endOfInput, place⟩ 4 (.start (.new 1)) world
        steps := by
  intro place plan world
  have calls : plan.CallsStandard := Plan.callsStandard_new _
  have failed : (plan.run (.new 1) world 4).1.outcome? =
      some (.error ⟨.endOfInput, place⟩) := by rfl
  exact ⟨calls, failed,
    ((Plan.failure_changes_nothing World.ledger calls).2 (.new 1) world 4 _ failed).1⟩

end LineScript
