import LineScript.RunError
import LineScript.Statement
import Std.Data.TreeMap

/-!
Where jumps lead. A label names the statement that defines it; of several definitions the last
counts, and each definition that replaces another is reported.
-/

namespace LineScript

/-- The definition of `label` at statement `index` hides the one at statement `previous`. -/
structure Shadowing where
  label : String
  index : Nat
  previous : Nat
deriving DecidableEq, Repr

structure LabelTable where
  indices : Std.TreeMap String Nat

namespace LabelTable

def empty : LabelTable := ⟨∅⟩

def index? (table : LabelTable) (label : String) : Option Nat :=
  table.indices[label]?

def define (table : LabelTable) (label : String) (index : Nat) : LabelTable :=
  ⟨table.indices.insert label index⟩

def locate (table : LabelTable) (destination : Destination) : Except RunError Nat :=
  match table.index? destination.label with
  | some index => .ok index
  | none => .error ⟨.undefinedLabel destination.label, destination.position⟩

/-- Enters the statements from `index` on. `shadowings` holds, in reverse, the definitions hidden
before. -/
def enter (table : LabelTable) (shadowings : List Shadowing) (index : Nat) :
    List Statement → LabelTable × List Shadowing
  | [] => (table, shadowings.reverse)
  | .label name :: statements =>
      let hidden := (table.index? name).map fun previous => ⟨name, index, previous⟩
      enter (table.define name index) (hidden.toList ++ shadowings) (index + 1) statements
  | _ :: statements => enter table shadowings (index + 1) statements

/-- The labels of a program, and the definitions hidden among them. -/
def collect (program : Program) : LabelTable × List Shadowing :=
  enter empty [] 0 program.toList

def ofProgram (program : Program) : LabelTable :=
  (collect program).1

@[simp] theorem index?_empty (label : String) : empty.index? label = none := by
  simp [empty, index?]

@[simp] theorem index?_define (table : LabelTable) (label : String) (index : Nat)
    (other : String) :
    (table.define label index).index? other =
      if label = other then some index else table.index? other := by
  simp [define, index?, Std.TreeMap.getElem?_insert]

end LabelTable
end LineScript
