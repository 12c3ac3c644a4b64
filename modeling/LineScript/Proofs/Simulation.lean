import LineScript.Proofs.Exchange
import Mathlib.Data.List.Forall2

/-!
Hosts that answer alike. As long as a run asks only for what two related hosts answer alike, it
comes to the same on both and leaves related hosts, and so do the runs of a session one after the
other.
-/

namespace LineScript

variable {σ τ : Type} [Host σ] [Host τ]

/-- A relation between hosts that answer every allowed request alike. -/
structure Simulation (σ τ : Type) [Host σ] [Host τ] where
  Related : σ → τ → Prop
  Allowed : Exchange σ → Prop
  reply_eq : ∀ (request : Request) (host : σ) (other : τ), Related host other →
    Allowed ⟨request, host⟩ → (Host.answer request other).1 = (Host.answer request host).1
  keeps : ∀ (request : Request) (host : σ) (other : τ), Related host other →
    Allowed ⟨request, host⟩ →
    Related (Host.answer request host).2 (Host.answer request other).2

/-- One of the runs of a session, with the session and the host before it. -/
structure Turn (σ : Type) where
  session : Session
  host : σ
  fuel : Nat
  program : Program

namespace Turn

def plan (turn : Turn σ) : Plan :=
  .new turn.session.library turn.program

def outcome (turn : Turn σ) : Option Outcome :=
  (turn.session.run turn.fuel turn.program turn.host).1

/-- The session that the run leaves. -/
def left (turn : Turn σ) : Session :=
  (turn.session.run turn.fuel turn.program turn.host).2.1

/-- The host that the run leaves. -/
def after (turn : Turn σ) : σ :=
  (turn.session.run turn.fuel turn.program turn.host).2.2

def deeds (turn : Turn σ) : List (Deed σ) :=
  turn.plan.deeds turn.session.store turn.host turn.fuel

def exchanges (turn : Turn σ) : List (Exchange σ) :=
  turn.plan.exchanges turn.session.store turn.host turn.fuel

end Turn

namespace Simulation

variable (simulation : Simulation σ τ) {host : σ} {other : τ}

/-- Interactions cannot tell hosts apart that answer alike. -/
theorem run {α : Type} (interaction : Interaction α) (related : simulation.Related host other)
    (allowed : ∀ exchange ∈ interaction.exchanges host, simulation.Allowed exchange) :
    (interaction.run other).1 = (interaction.run host).1 ∧
      simulation.Related (interaction.run host).2 (interaction.run other).2 := by
  induction interaction generalizing host other with
  | done value => exact ⟨rfl, related⟩
  | ask request resume ih =>
      obtain ⟨first, rest⟩ := List.forall_mem_cons.mp allowed
      have after := simulation.keeps request host other related first
      simp only [Interaction.run]
      rw [simulation.reply_eq request host other related first]
      exact ih _ after rest

end Simulation

end LineScript
