import LineScript.Byte

/-!
Interactions: computations that ask a host for input, output and files. An interaction is a tree
whose branches are the host's possible answers, so one definition of a program's meaning serves the
real host and every modelled one.
-/

namespace LineScript

inductive Request
  | write (bytes : Bytes)
  | flush
  | readByte
  | readFile (path : String)
  | writeFile (path : String) (bytes : Bytes)
deriving DecidableEq

/-- What one read delivers. Retrying an interrupted read is the host's business. -/
inductive Delivery
  | byte (value : UInt8)
  | exhausted
  | failed (reason : String)
deriving DecidableEq

abbrev Request.Reply : Request → Type
  | .write _ | .flush | .writeFile _ _ => Except String Unit
  | .readByte => Delivery
  | .readFile _ => Except String Bytes

inductive Interaction (α : Type)
  | done (value : α)
  | ask (request : Request) (resume : request.Reply → Interaction α)

/-- A host keeps a state and answers every request. -/
class Host (σ : Type) where
  answer : (request : Request) → σ → request.Reply × σ

namespace Interaction

def bind {α β : Type} : Interaction α → (α → Interaction β) → Interaction β
  | .done value, next => next value
  | .ask request resume, next => .ask request fun reply => (resume reply).bind next

instance : Monad Interaction where
  pure := .done
  bind := bind

def request (request : Request) : Interaction request.Reply :=
  .ask request .done

def run {σ α : Type} [Host σ] : Interaction α → σ → α × σ
  | .done value, state => (value, state)
  | .ask request resume, state =>
      let answered := Host.answer request state
      (resume answered.1).run answered.2

/-- Carries an interaction out in a monad that can answer requests. -/
def perform {m : Type → Type} [Monad m] {α : Type}
    (answer : (request : Request) → m request.Reply) : Interaction α → m α
  | .done value => pure value
  | .ask request resume => answer request >>= fun reply => (resume reply).perform answer

theorem bind_done {α : Type} (x : Interaction α) : x.bind .done = x := by
  induction x with
  | done _ => rfl
  | ask request resume ih => exact congrArg (ask request) (funext ih)

theorem bind_assoc {α β γ : Type} (x : Interaction α) (f : α → Interaction β)
    (g : β → Interaction γ) : (x.bind f).bind g = x.bind fun a => (f a).bind g := by
  induction x with
  | done _ => rfl
  | ask request resume ih => exact congrArg (ask request) (funext ih)

instance : LawfulMonad Interaction :=
  LawfulMonad.mk' _ bind_done (fun _ _ => rfl) bind_assoc

variable {σ α β : Type} [Host σ]

@[simp] theorem run_pure (value : α) (state : σ) :
    (pure value : Interaction α).run state = (value, state) := rfl

@[simp] theorem run_bind (x : Interaction α) (f : α → Interaction β) (state : σ) :
    (x >>= f).run state = (f (x.run state).1).run (x.run state).2 := by
  induction x generalizing state with
  | done _ => rfl
  | ask request resume ih => exact ih _ _

@[simp] theorem run_request (request : Request) (state : σ) :
    (Interaction.request request).run state = Host.answer request state := rfl

end Interaction
end LineScript
