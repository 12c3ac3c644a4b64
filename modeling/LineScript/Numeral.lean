/-!
Numerals. A run of digits denotes an exact natural number of any size; whether the number fits a
64-bit word or a memory size is another question.
-/

namespace LineScript.Numeral

/-- The value of a digit of the given base; letters of either case stand for ten to fifteen. -/
def digit? (base : Nat) (c : Char) : Option Nat :=
  let value? :=
    if '0' ≤ c ∧ c ≤ '9' then some (c.toNat - '0'.toNat)
    else if 'a' ≤ c ∧ c ≤ 'f' then some (c.toNat - 'a'.toNat + 10)
    else if 'A' ≤ c ∧ c ≤ 'F' then some (c.toNat - 'A'.toNat + 10)
    else none
  value?.filter (· < base)

/-- The number that a nonempty run of digits denotes. -/
def natural? (base : Nat) : List Char → Option Nat
  | [] => none
  | digits => digits.foldlM (fun value c => (digit? base c).map (base * value + ·)) 0

/-- The number denoted by a source literal: decimal digits, or hexadecimal ones after `0x`. -/
def literal? : List Char → Option Nat
  | '0' :: 'x' :: digits => natural? 16 digits
  | digits => natural? 10 digits

def unsigned? : List Char → Option Nat
  | '+' :: digits => natural? 10 digits
  | digits => natural? 10 digits

def signed? : List Char → Option Int
  | '-' :: digits => (natural? 10 digits).map fun value => -Int.ofNat value
  | digits => (unsigned? digits).map Int.ofNat

/-- The word equal to an integer, when 64 bits hold it. -/
def word? (value : Int) : Option Int64 :=
  if Int64.minValue.toInt ≤ value ∧ value ≤ Int64.maxValue.toInt then some (Int64.ofInt value)
  else none

/-- The word that a signed decimal numeral denotes. -/
def readWord? (numeral : String) : Option Int64 :=
  (signed? numeral.toList).bind word?

def ofNat (value : Nat) : String :=
  String.ofList (Nat.toDigits 10 value)

def ofInt : Int → String
  | .ofNat value => ofNat value
  | .negSucc value => "-" ++ ofNat (value + 1)

def ofWord (value : Int64) : String :=
  ofInt value.toInt

end LineScript.Numeral
