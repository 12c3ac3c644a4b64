import LineScript.Execution
import LineScript.World
import Mathlib.Data.Int.ModEq

/-!
Arithmetic on words against arithmetic on integers. Sums, differences, products and powers are the
words congruent to the exact results modulo 2^64. Quotients and remainders are exact, but for the
one quotient that no word holds.
-/

namespace LineScript

/-- The word stands for the integer, up to a multiple of 2^64. -/
def Wraps (exact : Int) (word : Int64) : Prop :=
  word.toInt ≡ exact [ZMOD 2 ^ 64]

namespace Wraps

theorem of_toInt {exact : Int} {word : Int64} (same : word.toInt = exact.bmod (2 ^ 64)) :
    Wraps exact word := by
  rw [Wraps, same]
  exact Int.bmod_emod

/-- Only one word stands for an integer. -/
theorem unique {exact : Int} {word other : Int64} (wraps : Wraps exact word)
    (wraps' : Wraps exact other) : word = other := by
  have residues : word.toInt % 2 ^ 64 = other.toInt % 2 ^ 64 := wraps.trans wraps'.symm
  have lower := word.le_toInt
  have lower' := other.le_toInt
  have upper := word.toInt_lt
  have upper' := other.toInt_lt
  rw [← Int64.toInt_inj]
  omega

theorem refl (word : Int64) : Wraps word.toInt word :=
  Int.ModEq.refl word.toInt

theorem mul {left right : Int} {word other : Int64} (wraps : Wraps left word)
    (wraps' : Wraps right other) : Wraps (left * right) (word * other) :=
  (of_toInt (Int64.toInt_mul word other)).trans (Int.ModEq.mul wraps wraps')

end Wraps

/-- What a division leaves that truncates its quotient toward zero. -/
structure IsRemainder (dividend divisor remainder : Int) : Prop where
  small : remainder.natAbs < divisor.natAbs
  nonneg : 0 ≤ dividend → 0 ≤ remainder
  nonpos : dividend ≤ 0 → remainder ≤ 0
  multiple : divisor ∣ dividend - remainder

theorem isRemainder_tmod (dividend : Int) {divisor : Int} (nonzero : divisor ≠ 0) :
    IsRemainder dividend divisor (dividend.tmod divisor) where
  small := by
    rw [Int.natAbs_tmod]
    exact Nat.mod_lt _ (Int.natAbs_pos.mpr nonzero)
  nonneg := Int.tmod_nonneg divisor
  nonpos := by
    intro nonpos
    have mirrored := Int.tmod_nonneg divisor (Int.neg_nonneg.mpr nonpos)
    rw [Int.neg_tmod] at mirrored
    exact Int.neg_nonneg.mp mirrored
  multiple := Int.dvd_self_sub_tmod

theorem IsRemainder.unique {dividend divisor remainder other : Int}
    (leaves : IsRemainder dividend divisor remainder)
    (leaves' : IsRemainder dividend divisor other) : remainder = other := by
  have multiple : divisor ∣ remainder - other := by
    have difference := Int.dvd_sub leaves'.multiple leaves.multiple
    rwa [sub_sub_sub_cancel_left] at difference
  -- Both lie on the side of the dividend, so they are less than a divisor apart.
  have near : (remainder - other).natAbs < divisor.natAbs := by
    obtain ⟨small, nonneg, nonpos, _⟩ := leaves
    obtain ⟨small', nonneg', nonpos', _⟩ := leaves'
    omega
  have same := Int.eq_zero_of_dvd_of_natAbs_lt_natAbs multiple near
  exact Int.sub_eq_zero.mp same

theorem Int64.toInt_div_of_fits {lhs rhs : Int64}
    (fits : ¬ (lhs.toInt = -2 ^ 63 ∧ rhs.toInt = -1)) :
    (lhs / rhs).toInt = lhs.toInt.tdiv rhs.toInt := by
  by_cases smallest : lhs = Int64.minValue
  · refine Int64.toInt_div_of_ne_right lhs rhs fun minus => fits ?_
    rw [smallest, minus]
    decide
  · exact Int64.toInt_div_of_ne_left lhs rhs smallest

namespace Arithmetic

/-- Repeated squaring multiplies the base by itself as often as the exponent says. -/
theorem power_wraps (base : Int64) (exponent : Nat) :
    Wraps (base.toInt ^ exponent) (power base exponent) := by
  fun_induction power base exponent with
  | case1 base =>
      rw [pow_zero]
      exact .refl 1
  -- The induction hypothesis is about the square of the base, at half the exponent.
  | case2 base exponent _ half even ih =>
      have doubled : exponent = 2 * (exponent / 2) := by omega
      have squared := ih.trans (Int.ModEq.pow (exponent / 2) ((Wraps.refl base).mul (.refl base)))
      rw [doubled, pow_mul, pow_two]
      exact squared
  | case3 base exponent _ half odd ih =>
      have doubled : exponent = 2 * (exponent / 2) + 1 := by omega
      have squared := ih.trans (Int.ModEq.pow (exponent / 2) ((Wraps.refl base).mul (.refl base)))
      rw [doubled, pow_succ', pow_mul, pow_two]
      exact (Wraps.refl base).mul squared

/-- The results of the operators on words, by what they come to on integers. -/
inductive Yields (lhs rhs : Int64) : Arithmetic → Except ArithmeticFault Int64 → Prop
  | sum {word : Int64} : Wraps (lhs.toInt + rhs.toInt) word → Yields lhs rhs .add (.ok word)
  | difference {word : Int64} : Wraps (lhs.toInt - rhs.toInt) word →
      Yields lhs rhs .sub (.ok word)
  | product {word : Int64} : Wraps (lhs.toInt * rhs.toInt) word → Yields lhs rhs .mul (.ok word)
  | quotient {word : Int64} : rhs.toInt ≠ 0 → ¬ (lhs.toInt = -2 ^ 63 ∧ rhs.toInt = -1) →
      word.toInt = lhs.toInt.tdiv rhs.toInt → Yields lhs rhs .div (.ok word)
  | wrappedQuotient {word : Int64} : lhs.toInt = -2 ^ 63 → rhs.toInt = -1 →
      word.toInt = -2 ^ 63 → Yields lhs rhs .div (.ok word)
  | noQuotient : rhs.toInt = 0 → Yields lhs rhs .div (.error .divisionByZero)
  | remainder {word : Int64} : rhs.toInt ≠ 0 → IsRemainder lhs.toInt rhs.toInt word.toInt →
      Yields lhs rhs .mod (.ok word)
  | noRemainder : rhs.toInt = 0 → Yields lhs rhs .mod (.error .divisionByZero)
  | power {word : Int64} : 0 ≤ rhs.toInt → rhs.toInt < 2 ^ 32 →
      Wraps (lhs.toInt ^ rhs.toInt.toNat) word → Yields lhs rhs .pow (.ok word)
  | noPower : rhs.toInt < 0 ∨ 2 ^ 32 ≤ rhs.toInt →
      Yields lhs rhs .pow (.error (.invalidExponent rhs))

theorem toInt_eq_zero_iff (word : Int64) : word.toInt = 0 ↔ word = 0 := by
  rw [← Int64.toInt_inj, Int64.toInt_zero]

theorem eval_yields (op : Arithmetic) (lhs rhs : Int64) : Yields lhs rhs op (op.eval lhs rhs) := by
  cases op with
  | add => exact .sum (.of_toInt (Int64.toInt_add lhs rhs))
  | sub => exact .difference (.of_toInt (Int64.toInt_sub lhs rhs))
  | mul => exact .product (.of_toInt (Int64.toInt_mul lhs rhs))
  | div =>
      rw [eval]
      split
      · next zero => exact .noQuotient ((toInt_eq_zero_iff rhs).mpr zero)
      · next nonzero =>
          rw [← toInt_eq_zero_iff] at nonzero
          -- Only the quotient 2^63 is too large for a word.
          by_cases fits : lhs.toInt = -2 ^ 63 ∧ rhs.toInt = -1
          · refine .wrappedQuotient fits.1 fits.2 ?_
            rw [Int64.toInt_div, fits.1, fits.2]
            rfl
          · exact .quotient nonzero fits (Int64.toInt_div_of_fits fits)
  | mod =>
      rw [eval]
      split
      · next zero => exact .noRemainder ((toInt_eq_zero_iff rhs).mpr zero)
      · next nonzero =>
          rw [← toInt_eq_zero_iff] at nonzero
          refine .remainder nonzero ?_
          rw [Int64.toInt_mod]
          exact isRemainder_tmod lhs.toInt nonzero
  | pow =>
      rw [eval]
      split
      · next inside => exact .power inside.1 inside.2 (power_wraps lhs _)
      · next outside =>
          rw [not_and_or, Int.not_le, Int.not_lt] at outside
          exact .noPower outside

/-- What an operator comes to on integers leaves it one result. -/
theorem Yields.unique {op : Arithmetic} {lhs rhs : Int64}
    {result other : Except ArithmeticFault Int64} (yields : Yields lhs rhs op result)
    (yields' : Yields lhs rhs op other) : result = other := by
  cases yields with
  | sum wraps | difference wraps | product wraps =>
      cases yields' with
      | _ wraps' => rw [wraps.unique wraps']
  | quotient nonzero fits same =>
      cases yields' with
      | quotient _ _ same' => rw [Int64.toInt_inj.mp (same.trans same'.symm)]
      | wrappedQuotient left right _ => exact absurd ⟨left, right⟩ fits
      | noQuotient zero => exact absurd zero nonzero
  | wrappedQuotient left right same =>
      cases yields' with
      | quotient _ fits _ => exact absurd ⟨left, right⟩ fits
      | wrappedQuotient _ _ same' => rw [Int64.toInt_inj.mp (same.trans same'.symm)]
      | noQuotient zero => omega
  | noQuotient zero =>
      cases yields' with
      | quotient nonzero _ _ => exact absurd zero nonzero
      | wrappedQuotient _ right _ => omega
      | noQuotient _ => rfl
  | remainder nonzero leaves =>
      cases yields' with
      | remainder _ leaves' => rw [Int64.toInt_inj.mp (leaves.unique leaves')]
      | noRemainder zero => exact absurd zero nonzero
  | noRemainder zero =>
      cases yields' with
      | remainder nonzero _ => exact absurd zero nonzero
      | noRemainder _ => rfl
  | power lower upper wraps =>
      cases yields' with
      | power _ _ wraps' => rw [wraps.unique wraps']
      | noPower outside => omega
  | noPower outside =>
      cases yields' with
      | power lower upper _ => omega
      | noPower _ => rfl

/-- A quotient and its remainder make up the dividend. -/
theorem dividend_wraps {lhs rhs quotient remainder : Int64}
    (divided : Yields lhs rhs .div (.ok quotient)) (left : Yields lhs rhs .mod (.ok remainder)) :
    Wraps (quotient.toInt * rhs.toInt + remainder.toInt) lhs := by
  cases left with
  | remainder nonzero leaves =>
      have exactly := leaves.unique (isRemainder_tmod lhs.toInt nonzero)
      cases divided with
      | quotient _ _ same =>
          rw [same, exactly, Int.tdiv_mul_add_tmod]
          exact .refl lhs
      | wrappedQuotient smallest minus same =>
          rw [same, exactly, Wraps, smallest, minus]
          decide

end Arithmetic

/-- An arithmetic statement whose operands are words stores the result of its operator, or it fails
at its right operand and changes nothing. -/
theorem Statement.compute_yields {σ : Type} [Host σ] (plan : Plan) (target : String)
    (op : Arithmetic) {lhs rhs : Operand} {store : Store} {left right : Int64}
    (first : store.evaluate lhs = .ok left) (second : store.evaluate rhs = .ok right) (host : σ) :
    let done := ((Statement.compute target op lhs rhs).execute plan).exec store host
    (∃! result, Arithmetic.Yields left right op result) ∧
    (∀ word, Arithmetic.Yields left right op (.ok word) →
      done = ((.ok .proceed, store.assign target word), host)) ∧
    (Arithmetic.Yields left right op (.error .divisionByZero) →
      done = ((.error ⟨.divisionByZero, rhs.position⟩, store), host)) ∧
    (∀ exponent, Arithmetic.Yields left right op (.error (.invalidExponent exponent)) →
      done = ((.error ⟨.invalidExponent exponent, rhs.position⟩, store), host)) ∧
    (∀ quotient remainder, Arithmetic.Yields left right .div (.ok quotient) →
      Arithmetic.Yields left right .mod (.ok remainder) →
      Wraps (quotient.toInt * right.toInt + remainder.toInt) left) ∧
    (right = 0 → Arithmetic.Yields left right .pow (.ok 1)) := by
  intro done
  have computed : done = match op.evalAt left right rhs.position with
      | .ok word => ((.ok .proceed, store.assign target word), host)
      | .error error => ((.error error, store), host) := by
    simp only [done, execute, Command.evaluate, Command.exec_bind, Command.exec_check, first,
      second, Command.exec_ofExcept]
    cases op.evalAt left right rhs.position <;> rfl
  have yields := op.eval_yields left right
  refine ⟨⟨_, yields, fun other yields' => yields'.unique yields⟩, fun word yields' => ?_,
    fun yields' => ?_, fun exponent yields' => ?_,
    fun quotient remainder => Arithmetic.dividend_wraps, fun zero => ?_⟩
  · rw [computed, Arithmetic.evalAt, yields.unique yields']
  · rw [computed, Arithmetic.evalAt, yields.unique yields']
  · rw [computed, Arithmetic.evalAt, yields.unique yields']
  · have empty : (0 : Int64).toInt.toNat = 0 := by decide
    subst zero
    refine .power (by decide) (by decide) ?_
    rw [empty, pow_zero]
    exact .refl 1

theorem Statement.compute_yields_smallest :
    let place := Position.start "<words>"
    let smallest : Operand := ⟨.variable "x", ⟨.identifier, "x", 1, place⟩⟩
    let minus : Operand := ⟨.variable "y", ⟨.identifier, "y", 1, place⟩⟩
    let store := ((Store.new 0).assign "x" Int64.minValue).assign "y" (-1)
    let world := World.quiet [] FileTable.empty
    let plan := Plan.new .standard #[]
    store.evaluate smallest = .ok Int64.minValue ∧ store.evaluate minus = .ok (-1) ∧
      Arithmetic.Yields Int64.minValue (-1) .div (.ok Int64.minValue) ∧
      ((Statement.compute "x" .div smallest minus).execute plan).exec store world =
        ((.ok .proceed, store.assign "x" Int64.minValue), world) ∧
      ((Statement.compute "x" .pow smallest minus).execute plan).exec store world =
        ((.error ⟨.invalidExponent (-1), place⟩, store), world) := by
  intro place smallest minus store world plan
  have first : store.evaluate smallest = .ok Int64.minValue := by rfl
  have second : store.evaluate minus = .ok (-1) := by rfl
  have quotient : Arithmetic.Yields Int64.minValue (-1) .div (.ok Int64.minValue) :=
    .wrappedQuotient (by decide) (by decide) (by decide)
  obtain ⟨_, divided, _⟩ := Statement.compute_yields plan "x" .div first second world
  obtain ⟨_, _, _, refused, _⟩ := Statement.compute_yields plan "x" .pow first second world
  exact ⟨first, second, quotient, divided _ quotient, refused _ (.noPower (.inl (by decide)))⟩

end LineScript
