import LineScript.Command

/-!
Builtins: operations that a program calls by name, kept in a library. A call passes a gate before
its handler runs: the library must know the name, the number of operands must fit, and where the
builtin asks for it every variable operand must exist. A call that does not pass changes nothing.
-/

namespace LineScript

inductive Arity
  | fixed (count : Nat)
  | any
deriving DecidableEq, Repr

/-- The number of operands that is asked for, when `found` is not that number. -/
def Arity.missed? (arity : Arity) (found : Nat) : Option Nat :=
  match arity with
  | .fixed expected => if found = expected then none else some expected
  | .any => none

/-- A handler gets the place of the call and the operands as written. -/
structure Builtin where
  arity : Arity
  validate : Bool
  handler : Position → List Operand → Command Unit

abbrev Library := Std.TreeMap String Builtin

namespace Library

def empty : Library := ∅

/-- Adds a builtin, or puts it in the place of the one that had its name. -/
def add (library : Library) (name : String) (builtin : Builtin) : Library :=
  library.insert name builtin

def find? (library : Library) (name : String) : Option Builtin :=
  library[name]?

/-- The builtin that a call reaches, or the reason why it reaches none. -/
def select (library : Library) (store : Store) (name : String) (args : List Operand)
    (call : Position) : Except RunError Builtin :=
  match library.find? name with
  | none => .error ⟨.undefinedFunction name, call⟩
  | some builtin =>
      match builtin.arity.missed? args.length with
      | some expected => .error ⟨.argumentCount name expected args.length, call⟩
      | none =>
          if builtin.validate then (store.checkVariables args).map fun () => builtin
          else .ok builtin

def perform (library : Library) (name : String) (args : List Operand) (call : Position) :
    Command Unit := do
  let builtin ← Command.check fun store => library.select store name args call
  builtin.handler call args

@[simp] theorem find?_add (library : Library) (name : String) (builtin : Builtin)
    (other : String) :
    (library.add name builtin).find? other =
      if name = other then some builtin else library.find? other := by
  simp [add, find?, Std.TreeMap.getElem?_insert]

end Library
end LineScript
