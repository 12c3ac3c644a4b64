import LineScript.Memory
import LineScript.RunError
import LineScript.Statement

/-!
The store of a run: variables and memory. The checks that turn operands into values, addresses and
cell ranges are functions of the store alone.
-/

namespace LineScript

structure Store where
  bindings : Std.TreeMap String Int64
  memory : Memory

namespace Store

/-- The variable that holds the number of memory cells from the start. -/
def sizeVariable : String := "__memsize"

/-- A store with the given number of cells. The size variable stops at the largest word. -/
def new (cells : Nat) : Store :=
  let shown := Int64.ofNat (min cells Int64.maxValue.toNatClampNeg)
  ⟨(∅ : Std.TreeMap String Int64).insert sizeVariable shown, .zeros cells⟩

def value? (store : Store) (name : String) : Option Int64 :=
  store.bindings[name]?

def assign (store : Store) (name : String) (value : Int64) : Store :=
  { store with bindings := store.bindings.insert name value }

/-- The value of an operand that has to be a number. -/
def evaluate (store : Store) (operand : Operand) : Except RunError Int64 :=
  match operand.term with
  | .integer value => .ok value
  | .text _ => .error ⟨.unexpectedString, operand.position⟩
  | .variable name =>
      match store.value? name with
      | some value => .ok value
      | none => .error ⟨.undefinedVariable name, operand.position⟩

/-- The cell that an operand names. -/
def cellOf (store : Store) (operand : Operand) (call : Position) : Except RunError Nat :=
  match store.evaluate operand with
  | .error error => .error error
  | .ok value =>
      if 0 ≤ value.toInt ∧ value.toInt < store.memory.size then .ok value.toInt.toNat
      else .error ⟨.addressOutOfBounds value store.memory.size, call⟩

/-- The end of a range of `length` cells from `start`, when all of them exist. -/
def rangeEnd (store : Store) (start : Nat) (length : Int) (call : Position) :
    Except RunError Nat :=
  if 0 ≤ length ∧ start + length ≤ store.memory.size then .ok (start + length.toNat)
  else .error ⟨.rangeOutOfBounds start length store.memory.size, call⟩

def lacks (store : Store) (operand : Operand) : Bool :=
  match operand.term with
  | .variable name => (store.value? name).isNone
  | _ => false

/-- Fails at the first variable operand that does not exist. -/
def checkVariables (store : Store) (args : List Operand) : Except RunError Unit :=
  match args.find? store.lacks with
  | some ⟨.variable name, token⟩ => .error ⟨.undefinedVariable name, token.position⟩
  | _ => .ok ()

@[simp] theorem value?_assign (store : Store) (name : String) (value : Int64)
    (other : String) :
    (store.assign name value).value? other =
      if name = other then some value else store.value? other := by
  simp [assign, value?, Std.TreeMap.getElem?_insert]

@[simp] theorem memory_assign (store : Store) (name : String) (value : Int64) :
    (store.assign name value).memory = store.memory := rfl

@[simp] theorem memory_new (cells : Nat) : (new cells).memory = .zeros cells := rfl

end Store
end LineScript
