import LineScript.Store

/-!
The bounds of memory. An operand names a cell when its value lies in memory, and a range of cells is
accepted when all of it does, both as integers. The same checks made in words of 64 bits, with
signed words taken as unsigned ones and a sum that may carry, accept the same and find the same.
-/

namespace LineScript

namespace Store

/-- What an operand comes to as the address of a cell. -/
inductive Addresses (store : Store) (operand : Operand) (call : Position) :
    Except RunError Nat → Prop
  | unresolved {error : RunError} : store.evaluate operand = .error error →
      Addresses store operand call (.error error)
  | inside {value : Int64} {address : Nat} : store.evaluate operand = .ok value →
      value.toInt = address → address < store.memory.size →
      Addresses store operand call (.ok address)
  | outside {value : Int64} : store.evaluate operand = .ok value →
      (value.toInt < 0 ∨ (store.memory.size : Int) ≤ value.toInt) →
      Addresses store operand call
        (.error ⟨.addressOutOfBounds value store.memory.size, call⟩)

/-- What a number of cells comes to as a range. -/
inductive Spans (store : Store) (start : Nat) (length : Int) (call : Position) :
    Except RunError Nat → Prop
  | within {stop : Nat} : 0 ≤ length → start + length = stop → stop ≤ store.memory.size →
      Spans store start length call (.ok stop)
  | beyond : (length < 0 ∨ (store.memory.size : Int) < start + length) →
      Spans store start length call
        (.error ⟨.rangeOutOfBounds start length store.memory.size, call⟩)

variable {store : Store} {operand : Operand} {call : Position}

theorem cellOf_eq_iff (store : Store) (operand : Operand) (call : Position)
    (outcome : Except RunError Nat) :
    store.cellOf operand call = outcome ↔ store.Addresses operand call outcome := by
  constructor
  · rintro rfl
    rw [cellOf]
    cases evaluated : store.evaluate operand with
    | error error => exact .unresolved evaluated
    | ok value =>
        dsimp only
        split
        · next bounds =>
            exact .inside evaluated (Int.toNat_of_nonneg bounds.1).symm (by omega)
        · next bounds => exact .outside evaluated (by omega)
  · intro addresses
    rw [cellOf]
    cases addresses with
    | unresolved failed => rw [failed]
    | inside evaluated same bound =>
        rw [evaluated]
        dsimp only
        rw [if_pos (by omega), same, Int.toNat_natCast]
    | outside evaluated bounds =>
        rw [evaluated]
        dsimp only
        rw [if_neg (by omega)]

theorem cellOf_addresses (store : Store) (operand : Operand) (call : Position) :
    store.Addresses operand call (store.cellOf operand call) :=
  (cellOf_eq_iff store operand call _).mp rfl

theorem rangeEnd_eq_iff (store : Store) (start : Nat) (length : Int) (call : Position)
    (outcome : Except RunError Nat) :
    store.rangeEnd start length call = outcome ↔ store.Spans start length call outcome := by
  constructor
  · rintro rfl
    rw [rangeEnd]
    split
    · next bounds => exact .within bounds.1 (by omega) (by omega)
    · next bounds => exact .beyond (by omega)
  · intro spans
    rw [rangeEnd]
    cases spans with
    | within nonnegative same bound =>
        rw [if_pos (by omega)]
        exact congrArg Except.ok (by omega)
    | beyond bounds => rw [if_neg (by omega)]

theorem of_cellOf {address : Nat} (found : store.cellOf operand call = .ok address) :
    ∃ word, store.evaluate operand = .ok word ∧ word.toInt = address ∧
      address < store.memory.size := by
  cases (cellOf_eq_iff _ _ _ _).mp found with
  | inside evaluated same bound => exact ⟨_, evaluated, same, bound⟩

theorem of_rangeEnd {start stop : Nat} {length : Int}
    (found : store.rangeEnd start length call = .ok stop) :
    start ≤ stop ∧ stop ≤ store.memory.size ∧ (stop : Int) = start + length := by
  cases (rangeEnd_eq_iff _ _ _ _ _).mp found with
  | within nonnegative same bound => exact ⟨by omega, bound, same.symm⟩

end Store

/-- A signed word as an unsigned one, if it is not negative. -/
def unsigned? (value : Int64) : Option UInt64 :=
  if 0 ≤ value then some value.toUInt64 else none

/-- The sum of two words, if it does not carry. -/
def checkedAdd? (left right : UInt64) : Option UInt64 :=
  if left ≤ left + right then some (left + right) else none

theorem unsigned?_eq_some_iff (value : Int64) (word : UInt64) :
    unsigned? value = some word ↔ value.toInt = word.toNat := by
  have wrapped : value.toInt = (value.toUInt64.toNat : Int).bmod (2 ^ 64) :=
    BitVec.toInt_eq_toNat_bmod value.toBitVec
  have small := value.toUInt64.toNat_lt
  have small' := word.toNat_lt
  have sign : 0 ≤ value ↔ 0 ≤ value.toInt := Int64.le_iff_toInt_le
  rw [Int.bmod_def] at wrapped
  rw [unsigned?]
  split
  · next positive =>
      rw [sign] at positive
      rw [Option.some_inj, ← UInt64.toNat_inj]
      split at wrapped <;> omega
  · next negative =>
      rw [sign] at negative
      exact ⟨nofun, fun same => by omega⟩

theorem checkedAdd?_eq_some_iff (left right sum : UInt64) :
    checkedAdd? left right = some sum ↔ left.toNat + right.toNat = sum.toNat := by
  have small := left.toNat_lt
  have small' := right.toNat_lt
  have small'' := sum.toNat_lt
  have wrapped := UInt64.toNat_add left right
  rw [checkedAdd?]
  split
  · next below =>
      rw [UInt64.le_iff_toNat_le] at below
      rw [Option.some_inj, ← UInt64.toNat_inj]
      omega
  · next carried =>
      rw [UInt64.le_iff_toNat_le] at carried
      exact ⟨nofun, fun same => by omega⟩

namespace Store

variable {store : Store}

/-- The check of an address in words. -/
def addressInWords? (store : Store) (value : Int64) : Option UInt64 :=
  (unsigned? value).filter fun word => word.toNat < store.memory.size

/-- The check of a range in words. -/
def rangeEndInWords? (store : Store) (start : UInt64) (length : Int64) : Option UInt64 :=
  ((unsigned? length).bind (checkedAdd? start)).filter fun stop => stop.toNat ≤ store.memory.size

theorem addressInWords?_eq_some_iff (value : Int64) (word : UInt64) :
    store.addressInWords? value = some word ↔
      value.toInt = word.toNat ∧ word.toNat < store.memory.size := by
  rw [addressInWords?, Option.filter_eq_some_iff, unsigned?_eq_some_iff, decide_eq_true_eq]

theorem rangeEndInWords?_eq_some_iff (start : UInt64) (length : Int64) (stop : UInt64) :
    store.rangeEndInWords? start length = some stop ↔
      0 ≤ length.toInt ∧ start.toNat + length.toInt = stop.toNat ∧
        stop.toNat ≤ store.memory.size := by
  rw [rangeEndInWords?, Option.filter_eq_some_iff, Option.bind_eq_some_iff, decide_eq_true_eq]
  simp only [unsigned?_eq_some_iff, checkedAdd?_eq_some_iff]
  constructor
  · rintro ⟨⟨cells, same, sum⟩, bound⟩
    exact ⟨by omega, by omega, bound⟩
  · rintro ⟨nonnegative, sum, bound⟩
    have small : length.toInt.toNat < 2 ^ 64 := by
      have := stop.toNat_lt
      omega
    have cells : (UInt64.ofNat length.toInt.toNat).toNat = length.toInt.toNat :=
      UInt64.toNat_ofNat_of_lt' small
    exact ⟨⟨.ofNat length.toInt.toNat, by omega, by omega⟩, bound⟩

theorem toOption_eq_map_toNat {outcome : Except RunError Nat} {word? : Option UInt64}
    (small : ∀ number, outcome = .ok number → number < UInt64.size)
    (same : ∀ word : UInt64, word? = some word ↔ outcome = .ok word.toNat) :
    outcome.toOption = word?.map UInt64.toNat := by
  cases outcome with
  | error error =>
      cases word? with
      | none => rfl
      | some word => cases (same word).mp rfl
  | ok number =>
      have exactly : (UInt64.ofNat number).toNat = number :=
        UInt64.toNat_ofNat_of_lt' (small number rfl)
      rw [(same (.ofNat number)).mpr (by rw [exactly])]
      exact congrArg some exactly.symm

/-- An address is found in words as it is among integers. -/
theorem cellOf_inWords {operand : Operand} {value : Int64}
    (evaluated : store.evaluate operand = .ok value) (call : Position) :
    (store.cellOf operand call).toOption = (store.addressInWords? value).map UInt64.toNat := by
  have found (address : Nat) : store.cellOf operand call = .ok address ↔
      value.toInt = address ∧ address < store.memory.size := by
    rw [cellOf_eq_iff]
    constructor
    · intro addresses
      cases addresses with
      | inside evaluated' same bound =>
          cases evaluated.symm.trans evaluated'
          exact ⟨same, bound⟩
    · exact fun ⟨same, bound⟩ => .inside evaluated same bound
  refine toOption_eq_map_toNat (fun address addressed => ?_) fun word => ?_
  · have same := ((found address).mp addressed).1
    have small := value.toInt_lt
    change address < 2 ^ 64
    omega
  · rw [addressInWords?_eq_some_iff, found]

/-- The end of a range is found in words as it is among integers, when memory has no more cells than
a word can count. -/
theorem rangeEnd_inWords (small : store.memory.size < UInt64.size) (start : UInt64) (length : Int64)
    (call : Position) :
    (store.rangeEnd start.toNat length.toInt call).toOption =
      (store.rangeEndInWords? start length).map UInt64.toNat := by
  refine toOption_eq_map_toNat (fun stop bounded => ?_) fun stop => ?_
  · exact Nat.lt_of_le_of_lt (of_rangeEnd bounded).2.1 small
  · rw [rangeEndInWords?_eq_some_iff, rangeEnd_eq_iff]
    constructor
    · exact fun ⟨nonnegative, same, bound⟩ => .within nonnegative same bound
    · intro spans
      cases spans with
      | within nonnegative same bound => exact ⟨nonnegative, same, bound⟩

end Store
end LineScript
