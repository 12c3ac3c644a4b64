import LineScript.Proofs.Event
import LineScript.Proofs.Ledger
import LineScript.Proofs.Simulation

/-!
The input as a stream of bytes. Interrupted reads cannot be noticed, calls of `input` store the
bytes of the stream one after the other, and what follows the items that were read makes no
difference.
-/

namespace LineScript

def Delivery.bytes : Delivery → Bytes
  | .byte value => [value]
  | .exhausted | .failed _ => []

namespace InputItem

/-- The bytes that are delivered, one after the other, by the items of an input. -/
def bytes (input : List InputItem) : Bytes :=
  input.filterMap fun
    | .byte value => some value
    | _ => none

/-- The second input is the first with interrupts inserted, any number of them anywhere. -/
inductive Interspersed : List InputItem → List InputItem → Prop
  | nil : Interspersed [] []
  | item (item : InputItem) {input other : List InputItem} (rest : Interspersed input other) :
      Interspersed (item :: input) (item :: other)
  | interrupt {input other : List InputItem} (rest : Interspersed input other) :
      Interspersed input (.interrupt :: other)

theorem Interspersed.deliver {input other : List InputItem}
    (interspersed : Interspersed input other) :
    (InputItem.deliver other).1 = (InputItem.deliver input).1 ∧
      Interspersed (InputItem.deliver input).2 (InputItem.deliver other).2 := by
  induction interspersed with
  | nil => exact ⟨rfl, .nil⟩
  | item item rest ih =>
      cases item with
      | interrupt => exact ih
      | byte _ | endOfInput | failure _ => exact ⟨rfl, rest⟩
  | interrupt rest ih => exact ih

/-- A delivery takes a byte that it delivers from the front of the stream, and else takes none. -/
theorem bytes_deliver (input : List InputItem) :
    bytes input = (deliver input).1.bytes ++ bytes (deliver input).2 := by
  induction input with
  | nil => rfl
  | cons item rest ih =>
      cases item with
      | interrupt => exact ih
      | byte _ | endOfInput | failure _ => rfl

end InputItem

theorem toInt_byteWord (byte : UInt8) : (byteWord byte).toInt = byte.toNat := by
  have below := byte.toNat_lt
  exact Int64.toInt_ofNat_of_lt (by omega)

variable {φ : Type} [FileStore φ]

namespace World

/-- The worlds are the same except that their inputs differ in a certain way. -/
def DifferBy (difference : List InputItem → List InputItem → Prop) (world other : World φ) : Prop :=
  ∃ input, other = { world with input } ∧ difference world.input input

theorem answer_other_input {request : Request} (silent : request ≠ .readByte) (world : World φ)
    (input : List InputItem) :
    Host.answer request { world with input } =
      ((Host.answer request world).1, { (Host.answer request world).2 with input }) := by
  cases request with
  | readByte => exact absurd rfl silent
  | write _ | readFile _ => rfl
  | flush =>
      simp only [Host.answer, answer, flush]
      split <;> rfl
  | writeFile path bytes =>
      simp only [Host.answer, answer]
      split <;> rfl

/-- Worlds whose inputs differ in a way that deliveries keep answer alike. -/
def simulation (difference : List InputItem → List InputItem → Prop)
    (Enough : List InputItem → Prop)
    (delivers : ∀ input other, difference input other → Enough input →
      (InputItem.deliver other).1 = (InputItem.deliver input).1 ∧
        difference (InputItem.deliver input).2 (InputItem.deliver other).2) :
    Simulation (World φ) (World φ) where
  Related := DifferBy difference
  Allowed exchange := exchange.request = .readByte → Enough exchange.host.input
  reply_eq request world other related enough := by
    obtain ⟨input, rfl, differ⟩ := related
    by_cases reads : request = .readByte
    · subst reads
      exact (delivers world.input input differ (enough rfl)).1
    · rw [answer_other_input reads]
  keeps request world other related enough := by
    obtain ⟨input, rfl, differ⟩ := related
    by_cases reads : request = .readByte
    · subst reads
      exact ⟨_, rfl, (delivers world.input input differ (enough rfl)).2⟩
    · refine ⟨input, congrArg Prod.snd (answer_other_input reads world input), ?_⟩
      change difference (World.ledger.input _) input
      rw [World.ledger.input_kept request world reads]
      exact differ

theorem bytes_of_flush {result : Except String Unit} {world ready : World φ}
    (flushed : Host.answer .flush world = (result, ready)) :
    InputItem.bytes ready.input = InputItem.bytes world.input :=
  congrArg InputItem.bytes (World.ledger.input_eq flushed nofun)

theorem bytes_of_read {delivery : Delivery} {world after : World φ}
    (read : Host.answer .readByte world = (delivery, after)) :
    InputItem.bytes world.input = delivery.bytes ++ InputItem.bytes after.input := by
  cases read
  exact InputItem.bytes_deliver world.input

end World

namespace Effect

/-- What performing an effect does with the stream: it takes the first byte and stores it, or it
leaves all bytes where they are, because it does not take input or because it fails. -/
inductive Draws (store left : Store) (world after : World φ) :
    Effect → Except RunError Unit → Prop
  | next {target : String} {call : Position} (byte : UInt8)
      (stored : left = store.assign target (byteWord byte))
      (front : InputItem.bytes world.input = byte :: InputItem.bytes after.input) :
      Draws store left world after (.take target call) (.ok ())
  | nothing {effect : Effect} {result : Except RunError Unit}
      (idle : effect.takesInput = false ∨ ∃ error, result = .error error)
      (same : InputItem.bytes after.input = InputItem.bytes world.input) :
      Draws store left world after effect result

theorem Performed.draws {store left : Store} {world after : World φ} {effect : Effect}
    {result : Except RunError Unit}
    (performed : Performed store world effect ((result, left), after)) :
    Draws store left world after effect result := by
  cases performed with
  | nothing | assigned _ _ | poked _ _ => exact .nothing (.inl rfl) rfl
  | written answered | unwritten answered | loaded answered _ | overfull answered _
  | unloaded answered | saved answered | unsaved answered =>
      exact .nothing (.inl rfl) (congrArg InputItem.bytes (World.ledger.input_eq answered nofun))
  | unflushed flushed => exact .nothing (.inr ⟨_, rfl⟩) (World.bytes_of_flush flushed)
  | @taken target call byte ready after flushed read =>
      refine .next byte rfl ?_
      rw [← World.bytes_of_flush flushed]
      exact World.bytes_of_read read
  | exhausted flushed read | unread flushed read =>
      refine .nothing (.inr ⟨_, rfl⟩) ?_
      rw [← World.bytes_of_flush flushed]
      exact (World.bytes_of_read read).symm

end Effect

namespace Deed

/-- The deed is a call of `input` that succeeds. -/
def inputs {σ : Type} [Host σ] (deed : Deed σ) : Bool :=
  match deed.statement with
  | .call "input" _ _ => deed.result.1.1.isOk
  | _ => false

/-- The deed has stored the byte, as a number, into the variable that its only operand names. -/
def Stores {σ : Type} [Host σ] (deed : Deed σ) (byte : UInt8) : Prop :=
  ∃ target name call word, deed.statement = .call "input" [target] call ∧
    target.asVariable = .ok name ∧ deed.left = deed.store.assign name word ∧
    word.toInt = byte.toNat

/-- What the deed does with the stream of bytes. -/
inductive Draws (deed : Deed (World φ)) : Prop
  | next (inputs : deed.inputs = true) (byte : UInt8) (stores : deed.Stores byte)
      (front : InputItem.bytes deed.host.input = byte :: InputItem.bytes deed.after.input)
  | nothing (inputs : deed.inputs = false)
      (same : InputItem.bytes deed.after.input = InputItem.bytes deed.host.input)

theorem inputs_of_fails {σ : Type} [Host σ] {deed : Deed σ} {error : RunError}
    (fails : deed.result.1.1 = .error error) : deed.inputs = false := by
  rw [inputs, fails]
  split <;> rfl

theorem inputs_of_comesTo {σ : Type} [Host σ] {deed : Deed σ} {effect : Effect}
    {succession : Succession}
    (comes : Statement.ComesTo deed.plan deed.store deed.statement effect succession)
    (idle : effect.takesInput = false) : deed.inputs = false := by
  obtain ⟨plan, statement, store, host⟩ := deed
  cases comes with
  | takeByte _ => cases idle
  | _ => rfl

theorem draws {deed : Deed (World φ)} (standard : deed.Standard) : deed.Draws := by
  have executed := Statement.execute_executed standard.calls deed.store deed.host
  change Statement.Executed _ _ _ _ deed.result at executed
  generalize done : deed.result = result at executed
  have failed {error : RunError} (fails : result.1.1 = .error error) : deed.inputs = false :=
    inputs_of_fails (by rw [done, fails])
  cases executed with
  | rejected checks => exact .nothing (failed rfl) (by rw [after, done])
  | failed effect checks performed =>
      have draws := (performed ▸ effect.perform_performed deed.store deed.host).draws
      cases draws with
      | nothing _ same => exact .nothing (failed rfl) (by rw [after, done, same])
  | done effect checks performed =>
      have comes := Statement.comesTo_of_effect checks
      have draws := (performed ▸ effect.perform_performed deed.store deed.host).draws
      cases draws with
      | nothing idle same =>
          obtain takes | ⟨_, fails⟩ := idle
          · exact .nothing (inputs_of_comesTo comes takes) (by rw [after, done, same])
          · cases fails
      | @next name call byte stored front =>
          obtain ⟨plan, statement, store, host⟩ := deed
          cases comes with
          | @takeByte target _ _ named =>
              refine .next ?_ byte ⟨target, name, call, byteWord byte, rfl, named, ?_, ?_⟩ ?_
              · rw [inputs, done]
                rfl
              · rw [left, done, stored]
              · exact toInt_byteWord byte
              · rw [after, done, front]

end Deed

/-- What is left of the stream after some deeds: all of it but the bytes that calls of `input` have
stored, one after the other. -/
def Drawn (start : List InputItem) (done : List (Deed (World φ))) (world : World φ) : Prop :=
  ∃ taken, List.Forall₂ Deed.Stores (done.filter Deed.inputs) taken ∧
    InputItem.bytes start = taken ++ InputItem.bytes world.input

theorem Drawn.concat {start : List InputItem} {done : List (Deed (World φ))}
    {deed : Deed (World φ)} (drawn : Drawn start done deed.host) (standard : deed.Standard) :
    Drawn start (done ++ [deed]) deed.after := by
  obtain ⟨taken, stored, split⟩ := drawn
  cases deed.draws standard with
  | next inputs byte stores front =>
      refine ⟨taken ++ [byte], ?_, ?_⟩
      · rw [List.filter_append, List.filter_singleton, inputs, cond_true]
        exact List.rel_append stored (.cons stores .nil)
      · rw [split, front, List.append_assoc, List.singleton_append]
  | nothing inputs same =>
      refine ⟨taken, ?_, ?_⟩
      · rw [List.filter_append, List.filter_singleton, inputs, cond_false, List.append_nil]
        exact stored
      · rw [split, same]

/-- What happens during the run. -/
def Turn.events (turn : Turn (World φ)) : List Event :=
  turn.exchanges.flatMap Exchange.events

end LineScript
