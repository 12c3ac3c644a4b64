import LineScript.Proofs.Exchange
import LineScript.World

/-!
The events that a modelled world sees of a run: every write, every attempt to flush, every single
read of the input with the interrupted ones among them, and every use of a file.
-/

namespace LineScript

namespace InputItem

/-- The reads of one delivery. Each takes an item or finds the end of the list, and another one
follows if it was interrupted. -/
def reads : List InputItem → List (Option InputItem)
  | [] => [none]
  | .interrupt :: rest => some .interrupt :: reads rest
  | item :: _ => [some item]

/-- All reads of a delivery but the last are interrupted. -/
theorem exists_reads (input : List InputItem) :
    ∃ interrupts last, reads input = List.replicate interrupts (some .interrupt) ++ [last] := by
  induction input with
  | nil => exact ⟨0, none, rfl⟩
  | cons item rest ih =>
      cases item with
      | interrupt =>
          obtain ⟨interrupts, last, found⟩ := ih
          refine ⟨interrupts + 1, last, ?_⟩
          rw [reads, found, List.replicate_succ, List.cons_append]
      | byte _ | endOfInput | failure _ => exact ⟨0, _, rfl⟩

theorem length_reads_le (input : List InputItem) :
    (reads input).length + (deliver input).2.length ≤ input.length + 1 := by
  induction input with
  | nil => exact Nat.le_refl _
  | cons item rest ih =>
      cases item with
      | interrupt =>
          rw [reads, deliver, List.length_cons, List.length_cons]
          omega
      | byte _ | endOfInput | failure _ =>
          simp only [reads, deliver, List.length_cons, List.length_nil]
          omega

end InputItem

inductive Event
  | wrote (bytes : Bytes) (result : Except String Unit)
  | flushed (result : Except String Unit)
  | read (item : Option InputItem)
  | loaded (path : String)
  | saved (path : String) (bytes : Bytes)

namespace Event

def isFlush : Event → Bool
  | .flushed _ => true
  | _ => false

def isRead : Event → Bool
  | .read _ => true
  | _ => false

end Event

/-- Where each element gives at most one that counts, and only if it counts itself. -/
theorem List.countP_flatMap_le {α β : Type} {gives : α → List β} {p : β → Bool} {q : α → Bool}
    {list : List α} (each : ∀ element ∈ list, (gives element).countP p ≤ (q element).toNat) :
    (list.flatMap gives).countP p ≤ list.countP q := by
  induction list with
  | nil => exact Nat.le_refl _
  | cons element list ih =>
      have first := each element List.mem_cons_self
      have rest := ih fun other member => each other (List.mem_cons_of_mem _ member)
      have counted : (if q element then 1 else 0) = (q element).toNat := by
        cases q element <;> rfl
      rw [List.flatMap_cons, List.countP_append, List.countP_cons, counted]
      omega

variable {φ : Type} [FileStore φ]

/-- What happens at a request, read by read. -/
def Exchange.events : Exchange (World φ) → List Event
  | ⟨.write bytes, world⟩ => [.wrote bytes (world.output.writeAll bytes).1]
  | ⟨.flush, world⟩ => [.flushed world.flush.1]
  | ⟨.readByte, world⟩ => (InputItem.reads world.input).map .read
  | ⟨.readFile path, _⟩ => [.loaded path]
  | ⟨.writeFile path bytes, _⟩ => [.saved path bytes]

namespace Deed

/-- What happens while the deed is done. -/
def events (deed : Deed (World φ)) : List Event :=
  deed.exchanges.flatMap Exchange.events

end Deed

namespace Plan

/-- What has happened in a run after a number of transitions. -/
def events (plan : Plan) (store : Store) (world : World φ) (steps : Nat) : List Event :=
  (plan.exchanges store world steps).flatMap Exchange.events

/-- The events of a run are those of its deeds, and a last flush when it has finished. -/
theorem events_eq (plan : Plan) (store : Store) (world : World φ) (steps : Nat) :
    let reached := plan.run store world steps
    let happened := (plan.deeds store world steps).flatMap Deed.events
    ((∀ outcome, reached.1.stage ≠ .finished outcome) ∧
        plan.events store world steps = happened) ∨
      ∃ executed final ready,
        (∃ earlier, plan.run store world earlier = (⟨.closing executed, final⟩, ready)) ∧
        reached = Execution.step plan ⟨.closing executed, final⟩ ready ∧
        plan.events store world steps = happened ++ [.flushed ready.flush.1] := by
  intro reached happened
  have grouped : ((plan.deeds store world steps).flatMap Deed.exchanges).flatMap Exchange.events =
      happened := List.flatMap_assoc
  rw [events]
  obtain ⟨unfinished, asked⟩ | ⟨executed, final, ready, closing, ended, asked⟩ :=
    plan.exchanges_eq store world steps
  · exact .inl ⟨unfinished, by rw [asked, grouped]⟩
  · refine .inr ⟨executed, final, ready, closing, ended, ?_⟩
    rw [asked, List.flatMap_append, grouped, List.flatMap_singleton]
    rfl

end Plan

def Exchange.isRead {σ : Type} (exchange : Exchange σ) : Bool :=
  exchange.request matches .readByte

/-- Each delivery reads at most once more than it takes items from the input. -/
theorem World.reads_answer (request : Request) (world : World φ) :
    (Exchange.events ⟨request, world⟩).countP Event.isRead +
        (Host.answer request world).2.input.length ≤
      world.input.length + [(⟨request, world⟩ : Exchange (World φ))].countP Exchange.isRead := by
  cases request with
  | write _ | readFile _ => exact Nat.le_of_eq (Nat.zero_add _)
  | flush =>
      refine Nat.le_trans (Nat.le_of_eq (Nat.zero_add _)) ?_
      simp only [Host.answer, answer, World.flush]
      split <;> exact Nat.le_refl _
  | writeFile path bytes =>
      refine Nat.le_trans (Nat.le_of_eq (Nat.zero_add _)) ?_
      simp only [Host.answer, answer]
      split <;> exact Nat.le_refl _
  | readByte =>
      have fewer := List.countP_le_length (p := Event.isRead ∘ Event.read)
        (l := InputItem.reads world.input)
      rw [Exchange.events, List.countP_map]
      exact Nat.le_trans (Nat.add_le_add_right fewer _) (InputItem.length_reads_le world.input)

theorem Interaction.reads_run {α : Type} (interaction : Interaction α) (world : World φ) :
    ((interaction.exchanges world).flatMap Exchange.events).countP Event.isRead +
        (interaction.run world).2.input.length ≤
      world.input.length + (interaction.exchanges world).countP Exchange.isRead := by
  induction interaction generalizing world with
  | done value => exact Nat.le_of_eq (Nat.zero_add _)
  | ask request resume ih =>
      have first := World.reads_answer request world
      have rest := ih (Host.answer request world).1 (Host.answer request world).2
      rw [run, exchanges, List.flatMap_cons, List.countP_append, ← List.singleton_append,
        List.countP_append]
      omega

theorem Plan.reads_run (plan : Plan) (store : Store) (world : World φ) (steps : Nat) :
    (plan.events store world steps).countP Event.isRead +
        (plan.run store world steps).2.input.length ≤
      world.input.length + (plan.exchanges store world steps).countP Exchange.isRead := by
  induction steps with
  | zero => exact Nat.le_of_eq (Nat.zero_add _)
  | succ steps ih =>
      have last := Interaction.reads_run (Execution.transition plan (plan.run store world steps).1)
        (plan.run store world steps).2
      rw [run_succ, events, exchanges, List.flatMap_append, List.countP_append,
        List.countP_append, ← events, Execution.step]
      omega

theorem Exchanged.countP_isRead {σ : Type} [Host σ] {host : σ} {takes : Bool}
    {exchanges : List (Exchange σ)} (exchanged : Exchanged host takes exchanges) :
    exchanges.countP Exchange.isRead ≤ takes.toNat := by
  cases exchanged with
  | nothing => exact Nat.le_refl _
  | @other request flushless readless =>
      cases request with
      | readByte => exact absurd rfl readless
      | _ => exact Nat.le_refl _
  | refused _ => exact Nat.zero_le _
  | prompted _ => exact Nat.le_refl _

/-- A run reads at most as often as there are items in the input and calls that ask for one. -/
theorem Plan.countP_isRead_events {plan : Plan} (calls : plan.CallsStandard) (store : Store)
    (world : World φ) (steps : Nat) :
    (plan.events store world steps).countP Event.isRead ≤
      world.input.length + (plan.deeds store world steps).countP Deed.asksInput := by
  have asked : (plan.exchanges store world steps).countP Exchange.isRead ≤
      (plan.deeds store world steps).countP Deed.asksInput := by
    have each (deed : Deed (World φ)) (member : deed ∈ plan.deeds store world steps) :
        deed.exchanges.countP Exchange.isRead ≤ deed.asksInput.toNat := by
      obtain ⟨rfl, inside⟩ := of_mem_deeds member
      exact (Deed.exchanges_exchanged (calls _ inside)).countP_isRead
    obtain ⟨_, same⟩ | ⟨_, _, _, _, _, same⟩ := plan.exchanges_eq store world steps
    · rw [same]
      exact List.countP_flatMap_le each
    · rw [same, List.countP_append]
      exact List.countP_flatMap_le each
  have read := plan.reads_run store world steps
  omega

end LineScript
