import LineScript.Proofs.Decimal

/-!
Integer literals: decimal numerals, and hexadecimal ones after `0x`. Leading zeros and the case of
the hexadecimal letters make no difference.
-/

namespace LineScript.Numeral

def HexDigit (c : Char) : Prop :=
  ('0' ≤ c ∧ c ≤ '9') ∨ ('a' ≤ c ∧ c ≤ 'f') ∨ ('A' ≤ c ∧ c ≤ 'F')

instance : DecidablePred HexDigit := fun c =>
  inferInstanceAs (Decidable (('0' ≤ c ∧ c ≤ '9') ∨ ('a' ≤ c ∧ c ≤ 'f') ∨ ('A' ≤ c ∧ c ≤ 'F')))

def hexDigitValue (c : Char) : Nat :=
  if c ≤ '9' then c.toNat - '0'.toNat
  else if c ≤ 'F' then c.toNat - 'A'.toNat + 10
  else c.toNat - 'a'.toNat + 10

def hexadecimalValue (digits : List Char) : Nat :=
  digits.foldl (fun value c => 16 * value + hexDigitValue c) 0

/-- A literal and the number that it stands for. -/
inductive Literal : List Char → Nat → Prop
  | decimal {digits : List Char} : DigitRun digits → Literal digits (decimalValue digits)
  | hexadecimal {digits : List Char} : digits ≠ [] → (∀ c ∈ digits, HexDigit c) →
      Literal ('0' :: 'x' :: digits) (hexadecimalValue digits)

theorem digit?_sixteen (c : Char) :
    digit? 16 c = if HexDigit c then some (hexDigitValue c) else none := by
  have le_iff (a b : Char) : a ≤ b ↔ a.toNat ≤ b.toNat := Iff.rfl
  simp only [digit?, HexDigit, hexDigitValue, le_iff, Char.reduceToNat]
  by_cases decimal : 48 ≤ c.toNat ∧ c.toNat ≤ 57
  · rw [if_pos decimal, if_pos (.inl decimal), if_pos decimal.2]
    exact Option.filter_some_pos (decide_eq_true (by omega))
  by_cases lower : 97 ≤ c.toNat ∧ c.toNat ≤ 102
  · rw [if_neg decimal, if_pos lower, if_pos (.inr (.inl lower)), if_neg (by omega),
      if_neg (by omega)]
    exact Option.filter_some_pos (decide_eq_true (by omega))
  by_cases upper : 65 ≤ c.toNat ∧ c.toNat ≤ 70
  · rw [if_neg decimal, if_neg lower, if_pos upper, if_pos (.inr (.inr upper)), if_neg (by omega),
      if_pos upper.2]
    exact Option.filter_some_pos (decide_eq_true (by omega))
  · rw [if_neg decimal, if_neg lower, if_neg upper, if_neg (by omega)]
    rfl

theorem natural?_sixteen_eq_some_iff (digits : List Char) (value : Nat) :
    natural? 16 digits = some value ↔
      digits ≠ [] ∧ (∀ c ∈ digits, HexDigit c) ∧ value = hexadecimalValue digits := by
  cases digits with
  | nil => simp [natural?]
  | cons c digits =>
      rw [natural?, foldlM_digit? digit?_sixteen, hexadecimalValue]
      · simp
      · exact List.cons_ne_nil c digits

theorem literal?_eq_some_iff (numeral : List Char) (value : Nat) :
    literal? numeral = some value ↔ Literal numeral value := by
  constructor
  · intro read
    rw [literal?.eq_def] at read
    split at read
    · obtain ⟨nonempty, digits, rfl⟩ := (natural?_sixteen_eq_some_iff _ _).mp read
      exact .hexadecimal nonempty digits
    · obtain ⟨run, rfl⟩ := (natural?_ten_eq_some_iff _ _).mp read
      exact .decimal run
  · intro literal
    cases literal with
    | hexadecimal nonempty digits =>
        exact (natural?_sixteen_eq_some_iff _ _).mpr ⟨nonempty, digits, rfl⟩
    | decimal run =>
        rw [literal?]
        · exact (natural?_ten_eq_some_iff _ _).mpr ⟨run, rfl⟩
        · -- No decimal numeral begins with `0x`.
          rintro digits rfl
          have letter := run.2 'x' (by simp)
          exact absurd letter.2 (by decide)

end LineScript.Numeral
