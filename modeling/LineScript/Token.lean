import LineScript.Operator
import LineScript.Position

/-!
Tokens. An operator or keyword token carries the operation it stands for in its kind, so a token
list can be read as statements without looking at spellings.
-/

namespace LineScript

inductive Keyword
  | conditional
  | goto
  | call
  | halt
deriving DecidableEq, Repr

namespace Keyword

def spelling : Keyword → String
  | .conditional => "if"
  | .goto => "goto"
  | .call => "call"
  | .halt => "end"

def all : List Keyword :=
  [.conditional, .goto, .call, .halt]

end Keyword

inductive Token.Kind
  | identifier
  | integer
  | text
  | label
  | endOfStatement
  | assign
  | keyword (word : Keyword)
  | comparison (op : Comparison)
  | arithmetic (op : Arithmetic)
deriving DecidableEq, Repr

/-- `text` is the meaning of the token: a name, the decimal numeral of an integer, the decoded
contents of a string, the name of a label, or the spelling of a keyword or operator. `length` counts
the bytes of source it covers. -/
structure Token where
  kind : Token.Kind
  text : String
  length : Nat
  position : Position
deriving DecidableEq, Repr

def Token.isInLine (token : Token) : Bool :=
  token.kind != .endOfStatement

end LineScript
