import LineScript.Token

/-!
Statements and programs. Operands and jump targets keep the token or place they were read from, for
messages only; nothing a program does depends on them.
-/

namespace LineScript

inductive Operand.Term
  | integer (value : Int64)
  | text (content : String)
  | variable (name : String)
deriving DecidableEq

structure Operand where
  term : Operand.Term
  token : Token
deriving DecidableEq

namespace Operand

def position (operand : Operand) : Position :=
  operand.token.position

def isText (operand : Operand) : Bool :=
  match operand.term with
  | .text _ => true
  | _ => false

/-- The short name of the operand's type, as debug output shows it. -/
def typeName (operand : Operand) : String :=
  match operand.term with
  | .integer _ => "int"
  | .text _ => "str"
  | .variable _ => "var"

end Operand

structure Destination where
  label : String
  position : Position
deriving DecidableEq

inductive Statement
  | assign (target : String) (value : Operand)
  | compute (target : String) (op : Arithmetic) (lhs rhs : Operand)
  | branch (op : Comparison) (lhs rhs : Operand) (destination : Destination)
  | label (name : String)
  | jump (destination : Destination)
  | halt
  | call (name : String) (args : List Operand) (position : Position)
deriving DecidableEq

namespace Statement

/-- The place that stands for a statement in messages about the end of a run. -/
def position? : Statement → Option Position
  | .assign _ value => some value.position
  | .compute _ _ lhs _ => some lhs.position
  | .branch _ _ _ destination | .jump destination => some destination.position
  | .label _ | .halt => none
  | .call _ _ position => some position

end Statement

abbrev Program := Array Statement

namespace Program

def lastPosition (program : Program) : Position :=
  (program.toList.reverse.findSome? Statement.position?).getD (.start "<program>")

end Program
end LineScript
