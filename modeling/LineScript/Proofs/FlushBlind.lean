import LineScript.Proofs.Simulation
import LineScript.World

/-!
Hosts apart from their flushes. As long as no flush fails, two hosts that differ in their flushes
only answer every request alike, so whatever is carried out on them comes to the same.
-/

namespace LineScript

/-- A view of a host that does not show its flushes. On a steady host no flush fails, and what two
steady hosts answer depends on what they look like. -/
structure FlushBlind (σ τ : Type) [Host σ] where
  view : σ → τ
  Steady : σ → Prop
  steady_answer : ∀ (request : Request) (host : σ), Steady host →
    Steady (Host.answer request host).2
  flush_succeeds : ∀ host, Steady host → (Host.answer .flush host).1 = .ok ()
  view_flush : ∀ host, Steady host → view (Host.answer .flush host).2 = view host
  reply_eq : ∀ (request : Request) (host other : σ), Steady host → Steady other →
    view host = view other → (Host.answer request host).1 = (Host.answer request other).1
  view_eq : ∀ (request : Request) (host other : σ), Steady host → Steady other →
    view host = view other → view (Host.answer request host).2 = view (Host.answer request other).2

namespace World

variable {φ : Type}

/-- No flush from here on fails. -/
def FlushesSucceed (world : World φ) : Prop :=
  ∀ attempt > world.flushAttempts, attempt ∉ world.failingFlushes

theorem FlushesSucceed.flush_eq {world : World φ} (succeed : world.FlushesSucceed) :
    world.flush = (.ok (), { world with
      flushAttempts := world.flushAttempts + 1,
      flushes := world.output.written.size :: world.flushes }) :=
  if_neg (succeed (world.flushAttempts + 1) (Nat.lt_succ_self _))

/-- What a world looks like apart from its flushes. -/
def flushBlind [FileStore φ] : FlushBlind (World φ) (List InputItem × Sink × φ) where
  view world := (world.input, world.output, world.files)
  Steady := FlushesSucceed
  steady_answer request world steady := by
    cases request with
    | write _ | readByte | readFile _ => exact steady
    | flush =>
        simp only [Host.answer, answer, steady.flush_eq]
        exact fun attempt later => steady attempt (Nat.lt_of_succ_lt later)
    | writeFile path bytes =>
        simp only [Host.answer, answer]
        split <;> exact steady
  flush_succeeds world steady := by simp only [Host.answer, answer, steady.flush_eq]
  view_flush world steady := by simp only [Host.answer, answer, steady.flush_eq]
  reply_eq request world other steady steady' same := by
    simp only [Prod.mk.injEq] at same
    obtain ⟨input, output, files⟩ := same
    cases request with
    | write _ | readByte | readFile _ => simp only [Host.answer, answer, input, output, files]
    | flush => simp only [Host.answer, answer, steady.flush_eq, steady'.flush_eq]
    | writeFile path bytes =>
        simp only [Host.answer, answer, files]
        split <;> rfl
  view_eq request world other steady steady' same := by
    simp only [Prod.mk.injEq] at same
    obtain ⟨input, output, files⟩ := same
    cases request with
    | write _ | readByte | readFile _ => simp only [Host.answer, answer, input, output, files]
    | flush =>
        simp only [Host.answer, answer, steady.flush_eq, steady'.flush_eq, input, output, files]
    | writeFile path bytes =>
        simp only [Host.answer, answer, files]
        split <;> simp only [input, output, files]

end World

namespace FlushBlind

variable {σ τ : Type} [Host σ] (seen : FlushBlind σ τ)

/-- Steady hosts that look the same. -/
structure Alike (host other : σ) : Prop where
  steady : seen.Steady host
  steady' : seen.Steady other
  view : seen.view host = seen.view other

variable {seen} {host other : σ}

theorem Alike.answer (alike : seen.Alike host other) (request : Request) :
    (Host.answer request host).1 = (Host.answer request other).1 ∧
      seen.Alike (Host.answer request host).2 (Host.answer request other).2 := by
  obtain ⟨steady, steady', same⟩ := alike
  exact ⟨seen.reply_eq request host other steady steady' same,
    seen.steady_answer request host steady, seen.steady_answer request other steady',
    seen.view_eq request host other steady steady' same⟩

/-- Hosts that look the same answer alike, whatever is asked. -/
def simulation (seen : FlushBlind σ τ) : Simulation σ σ where
  Related := seen.Alike
  Allowed _ := True
  reply_eq request _ _ alike _ := (alike.answer request).1.symm
  keeps request _ _ alike _ := (alike.answer request).2

theorem Alike.run {α : Type} (alike : seen.Alike host other) (interaction : Interaction α) :
    (interaction.run host).1 = (interaction.run other).1 ∧
      seen.Alike (interaction.run host).2 (interaction.run other).2 := by
  obtain ⟨same, after⟩ := seen.simulation.run interaction alike fun _ _ => trivial
  exact ⟨same.symm, after⟩

theorem Alike.flush (steady : seen.Steady host) :
    seen.Alike (Host.answer .flush host).2 host :=
  ⟨seen.steady_answer .flush host steady, steady, seen.view_flush host steady⟩

theorem steady_run (steady : seen.Steady host) {α : Type} (interaction : Interaction α) :
    seen.Steady (interaction.run host).2 :=
  ((⟨steady, steady, rfl⟩ : seen.Alike host host).run interaction).2.steady

end FlushBlind

namespace Execution

variable {σ τ : Type} [Host σ] {seen : FlushBlind σ τ} {host other : σ}

theorem step_alike (plan : Plan) (execution : Execution) (alike : seen.Alike host other) :
    (step plan execution host).1 = (step plan execution other).1 ∧
      seen.Alike (step plan execution host).2 (step plan execution other).2 :=
  alike.run (transition plan execution)

/-- A run that closes keeps its outcome when the last flush cannot fail. -/
theorem step_closing_steady (plan : Plan) (outcome : Outcome) (store : Store)
    (steady : seen.Steady host) :
    step plan ⟨.closing outcome, store⟩ host =
      (⟨.finished outcome, store⟩, (Host.answer .flush host).2) := by
  have succeeds := seen.flush_succeeds host steady
  rw [step_closing, Command.exec_flush]
  rcases answered : Host.answer Request.flush host with ⟨reply, after⟩
  rw [answered] at succeeds
  cases succeeds
  cases outcome <;> rfl

end Execution

theorem Plan.steady_run {σ τ : Type} [Host σ] {seen : FlushBlind σ τ} (plan : Plan) (store : Store)
    {host : σ} (steady : seen.Steady host) (steps : Nat) :
    seen.Steady (plan.run store host steps).2 := by
  induction steps with
  | zero => exact steady
  | succ steps ih =>
      rw [run_succ]
      exact FlushBlind.steady_run ih _

/-- Where a run that ends came to its end: the outcome is that of the last statement, because the
flush after it succeeds. -/
theorem Plan.running_of_ends {σ τ : Type} [Host σ] {seen : FlushBlind σ τ} {plan : Plan}
    {store final : Store} {host after : σ} {outcome : Outcome} (steady : seen.Steady host)
    (ends : plan.Ends store host outcome final after) :
    ∃ steps pointer left before ready,
      plan.run store host steps = (⟨.running pointer, left⟩, before) ∧
      Execution.step plan ⟨.running pointer, left⟩ before = (⟨.closing outcome, final⟩, ready) ∧
      seen.Steady ready ∧ after = (Host.answer .flush ready).2 := by
  obtain ⟨_, ended⟩ := ends
  obtain ⟨closes, ending, ready, closing, finished⟩ := closing_of_finished ended
  have calm : seen.Steady ready := by
    have kept := plan.steady_run store steady closes
    rwa [closing] at kept
  rw [Execution.step_closing_steady plan ending final calm] at finished
  cases finished
  obtain ⟨steps, pointer, left, before, running, closed⟩ := running_of_closing closing
  exact ⟨steps, pointer, left, before, ready, running, closed, calm, rfl⟩

end LineScript
