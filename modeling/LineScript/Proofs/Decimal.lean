import LineScript.Numeral

/-!
What a decimal numeral denotes, with a sign or without, and that reading one finds exactly that. The
relations are over all numbers; that a numeral fits a word is the existence of a word with its
value.
-/

namespace LineScript.Numeral

/-- The decimal digits, of which there is at least one. -/
def DigitRun (digits : List Char) : Prop :=
  digits ≠ [] ∧ ∀ c ∈ digits, '0' ≤ c ∧ c ≤ '9'

def decimalValue (digits : List Char) : Nat :=
  digits.foldl (fun value c => 10 * value + (c.toNat - '0'.toNat)) 0

inductive Decimal : List Char → Int → Prop
  | plain (digits : List Char) : DigitRun digits → Decimal digits (decimalValue digits)
  | plus (digits : List Char) : DigitRun digits → Decimal ('+' :: digits) (decimalValue digits)
  | minus (digits : List Char) :
      DigitRun digits → Decimal ('-' :: digits) (-(decimalValue digits : Int))

/-- The numeral of a number that is not negative. A plus sign can stand before it. -/
inductive Unsigned : List Char → Nat → Prop
  | plain (digits : List Char) : DigitRun digits → Unsigned digits (decimalValue digits)
  | plus (digits : List Char) : DigitRun digits → Unsigned ('+' :: digits) (decimalValue digits)

theorem digit?_ten (c : Char) :
    digit? 10 c = if '0' ≤ c ∧ c ≤ '9' then some (c.toNat - '0'.toNat) else none := by
  have beyond (n : Nat) : ¬ n + 10 < 10 := by omega
  simp only [digit?]
  split
  · next decimal =>
      have upper : c.toNat ≤ '9'.toNat := decimal.2
      have small : c.toNat - '0'.toNat < 10 := by
        change c.toNat ≤ 57 at upper
        change c.toNat - 48 < 10
        omega
      exact Option.filter_some_pos (by simpa using small)
  · split
    · simp [Option.filter, beyond]
    · split
      · simp [Option.filter, beyond]
      · rfl

/-- Digit after digit, from any value read before. -/
theorem foldlM_digit? {base : Nat} {IsDigit : Char → Prop} [DecidablePred IsDigit]
    {value : Char → Nat}
    (reads : ∀ c, digit? base c = if IsDigit c then some (value c) else none)
    (digits : List Char) (start result : Nat) :
    digits.foldlM (fun read c => (digit? base c).map (base * read + ·)) start = some result ↔
      (∀ c ∈ digits, IsDigit c) ∧
        result = digits.foldl (fun read c => base * read + value c) start := by
  induction digits generalizing start with
  | nil => simp [eq_comm]
  | cons c digits ih =>
      rw [List.foldlM_cons, reads]
      by_cases digit : IsDigit c
      · rw [if_pos digit]
        simp only [Option.map_some, Option.bind_eq_bind, Option.bind_some, ih, List.foldl_cons,
          List.forall_mem_cons, digit, true_and]
      · rw [if_neg digit]
        simp [digit]

theorem natural?_ten_eq_some_iff (digits : List Char) (value : Nat) :
    natural? 10 digits = some value ↔ DigitRun digits ∧ value = decimalValue digits := by
  cases digits with
  | nil => simp [natural?, DigitRun]
  | cons c digits =>
      rw [natural?, foldlM_digit? digit?_ten, DigitRun, decimalValue]
      · simp
      · exact List.cons_ne_nil c digits

/-- A run of digits does not begin with a sign, which comes before all digits. -/
theorem DigitRun.ne_cons {digits : List Char} (run : DigitRun digits) {sign : Char}
    (below : ¬ '0' ≤ sign) (rest : List Char) : digits ≠ sign :: rest := by
  rintro rfl
  exact below (run.2 sign List.mem_cons_self).1

theorem unsigned?_eq_some_iff (numeral : List Char) (value : Nat) :
    unsigned? numeral = some value ↔ Unsigned numeral value := by
  constructor
  · intro read
    rw [unsigned?.eq_def] at read
    split at read
    · obtain ⟨run, rfl⟩ := (natural?_ten_eq_some_iff _ value).mp read
      exact .plus _ run
    · obtain ⟨run, rfl⟩ := (natural?_ten_eq_some_iff _ value).mp read
      exact .plain _ run
  · intro unsigned
    cases unsigned with
    | plus digits run =>
        rw [unsigned?]
        exact (natural?_ten_eq_some_iff _ _).mpr ⟨run, rfl⟩
    | plain _ run =>
        rw [unsigned?]
        · exact (natural?_ten_eq_some_iff numeral _).mpr ⟨run, rfl⟩
        · exact run.ne_cons (by decide)

/-- A sign is no digit, so at most one of the three readings is possible. -/
theorem signed?_eq_some_iff (numeral : List Char) (value : Int) :
    signed? numeral = some value ↔ Decimal numeral value := by
  constructor
  · intro read
    rw [signed?.eq_def] at read
    split at read
    · next digits =>
        obtain ⟨magnitude, found, rfl⟩ := Option.map_eq_some_iff.mp read
        obtain ⟨run, rfl⟩ := (natural?_ten_eq_some_iff digits magnitude).mp found
        exact .minus digits run
    · obtain ⟨magnitude, found, rfl⟩ := Option.map_eq_some_iff.mp read
      cases (unsigned?_eq_some_iff _ magnitude).mp found with
      | plain _ run => exact .plain _ run
      | plus digits run => exact .plus digits run
  · intro decimal
    cases decimal with
    | minus digits run =>
        rw [signed?, (natural?_ten_eq_some_iff digits _).mpr ⟨run, rfl⟩]
        rfl
    | plus digits run =>
        rw [signed?, (unsigned?_eq_some_iff _ _).mpr (.plus digits run)]
        · rfl
        · simp
    | plain _ run =>
        rw [signed?, (unsigned?_eq_some_iff _ _).mpr (.plain numeral run)]
        · rfl
        · exact run.ne_cons (by decide)

theorem word?_eq_some_iff (value : Int) (word : Int64) :
    word? value = some word ↔ word.toInt = value := by
  constructor
  · intro read
    simp only [word?, Option.ite_none_right_eq_some, Option.some.injEq] at read
    obtain ⟨⟨low, high⟩, rfl⟩ := read
    rw [Int64.toInt_maxValue] at high
    exact Int64.toInt_ofInt_of_le low (Int.lt_of_le_sub_one high)
  · rintro rfl
    have high : word.toInt ≤ Int64.maxValue.toInt := by
      rw [Int64.toInt_maxValue]
      exact Int.le_sub_one_of_lt word.toInt_lt
    rw [word?, if_pos ⟨word.le_toInt, high⟩, Int64.ofInt_toInt]

@[simp] theorem toList_ofNat (value : Nat) : (ofNat value).toList = Nat.toDigits 10 value :=
  String.toList_ofList

theorem digitRun_toDigits (value : Nat) : DigitRun (Nat.toDigits 10 value) := by
  refine ⟨Nat.toDigits_ne_nil, fun c member => ?_⟩
  have digit := Nat.isDigit_of_mem_toDigits (by decide) (Nat.le_refl 10) member
  exact Char.isDigit_iff_toNat.mp digit

/-- A number reads back from its numeral. -/
theorem decimal_ofNat (value : Nat) : Decimal (ofNat value).toList value := by
  have same : decimalValue (Nat.toDigits 10 value) = value := Nat.ofDigitChars_ten_toDigits
  have plain := Decimal.plain (Nat.toDigits 10 value) (digitRun_toDigits value)
  rwa [same, ← toList_ofNat] at plain

theorem readWord?_eq_some_iff (numeral : String) (word : Int64) :
    readWord? numeral = some word ↔ Decimal numeral.toList word.toInt := by
  simp only [readWord?, Option.bind_eq_some_iff, signed?_eq_some_iff, word?_eq_some_iff]
  constructor
  · rintro ⟨value, decimal, rfl⟩
    exact decimal
  · intro decimal
    exact ⟨word.toInt, decimal, rfl⟩

end LineScript.Numeral
