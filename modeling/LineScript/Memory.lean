import Std.Data.TreeMap

/-!
Memory: a fixed number of 64-bit cells, all zero at first. Only cells that were
written are kept, so a large memory costs nothing until it is used. Every operation answers `none`
when it would touch a cell outside.
-/

namespace LineScript

structure Memory where
  size : Nat
  written : Std.TreeMap Nat Int64

namespace Memory

def zeros (size : Nat) : Memory :=
  ⟨size, ∅⟩

def cell (memory : Memory) (address : Nat) : Int64 :=
  memory.written.getD address 0

def get? (memory : Memory) (address : Nat) : Option Int64 :=
  if address < memory.size then some (memory.cell address) else none

/-- Places consecutive values from `address` on. -/
def place (memory : Memory) (address : Nat) : List Int64 → Memory
  | [] => memory
  | value :: values =>
      place ⟨memory.size, memory.written.insert address value⟩ (address + 1) values

def set? (memory : Memory) (address : Nat) (value : Int64) : Option Memory :=
  if address < memory.size then some (memory.place address [value]) else none

/-- The cells from `start` up to, not including, `stop`. -/
def slice? (memory : Memory) (start stop : Nat) : Option (List Int64) :=
  if start ≤ stop ∧ stop ≤ memory.size then
    some ((List.range' start (stop - start)).map memory.cell)
  else none

/-- Fills the cells from `start` up to `stop`, as far as there are values. -/
def fill? (memory : Memory) (start stop : Nat) (values : List Int64) : Option Memory :=
  if start ≤ stop ∧ stop ≤ memory.size then
    some (memory.place start (values.take (stop - start)))
  else none

def nonzero (memory : Memory) : List (Nat × Int64) :=
  memory.written.toList.filter fun entry => entry.2 ≠ 0

@[simp] theorem size_zeros (size : Nat) : (zeros size).size = size := rfl

@[simp] theorem cell_zeros (size address : Nat) : (zeros size).cell address = 0 := by
  simp [zeros, cell]

@[simp] theorem size_place (memory : Memory) (address : Nat) (values : List Int64) :
    (memory.place address values).size = memory.size := by
  induction values generalizing memory address with
  | nil => rfl
  | cons value values ih => exact ih _ _

theorem cell_place (memory : Memory) (address : Nat) (values : List Int64) (other : Nat) :
    (memory.place address values).cell other =
      if address ≤ other then (values[other - address]?).getD (memory.cell other)
      else memory.cell other := by
  induction values generalizing memory address with
  | nil => simp [place]
  | cons value values ih =>
      rw [place, ih]
      simp only [cell, Std.TreeMap.getD_insert, Nat.compare_eq_eq]
      by_cases same : address = other
      · subst same
        simp [show ¬ address + 1 ≤ address by omega]
      · by_cases below : address ≤ other
        · have beyond : address + 1 ≤ other := by omega
          have shifted : other - address = other - (address + 1) + 1 := by omega
          simp [same, below, beyond, shifted]
        · have below' : ¬ address + 1 ≤ other := by omega
          simp [same, below, below']

end Memory
end LineScript
