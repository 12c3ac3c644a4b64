import LineScript.Proofs.Meaning
import LineScript.Proofs.WellFormed
import Mathlib.Data.List.Induction

/-!
Where jumps lead. The table of a program sends a label to the last statement that defines it, and a
statement that jumps goes where the table sends its destination.
-/

namespace LineScript

/-- The statement at `index` defines the label, and none after it does. -/
def Program.LastLabel (program : Program) (label : String) (index : Nat) : Prop :=
  program[index]? = some (.label label) ∧
    ∀ later, index < later → program[later]? ≠ some (.label label)

theorem Program.LastLabel.lt_size {program : Program} {label : String} {index : Nat}
    (last : program.LastLabel label index) : index < program.size :=
  (Array.getElem?_eq_some_iff.mp last.1).1

namespace LabelTable

theorem index?_enter_concat (statements : List Statement) (statement : Statement)
    (table : LabelTable) (shadowings : List Shadowing) (start : Nat) (label : String) :
    (enter table shadowings start (statements ++ [statement])).1.index? label =
      if statement = .label label then some (start + statements.length)
      else (enter table shadowings start statements).1.index? label := by
  induction statements generalizing table shadowings start with
  | nil =>
      cases statement with
      | label name => simp [enter]
      | _ => simp [enter]
  | cons first statements ih =>
      have shifted : start + 1 + statements.length = start + (statements.length + 1) := by omega
      cases first with
      | label name => rw [List.cons_append, enter, enter, ih, List.length_cons, shifted]
      | _ => exact (ih table shadowings (start + 1)).trans (by rw [shifted]; rfl)

/-- A label leads to the last of its definitions. -/
theorem index?_ofProgram_eq_some_iff (program : Program) (label : String) (index : Nat) :
    (ofProgram program).index? label = some index ↔ program.LastLabel label index := by
  obtain ⟨statements⟩ := program
  simp only [ofProgram, collect, Program.LastLabel, List.getElem?_toArray]
  -- From the back, because a later definition replaces an earlier one.
  induction statements using List.reverseRecOn with
  | nil => simp [enter]
  | append_singleton statements statement ih =>
      rw [index?_enter_concat, Nat.zero_add]
      by_cases defines : statement = .label label
      · rw [if_pos defines, defines, Option.some.injEq]
        constructor
        · rintro rfl
          refine ⟨List.getElem?_concat_length, fun later above => ?_⟩
          have past : (statements ++ [.label label])[later]? = none :=
            List.getElem?_eq_none (by simp; omega)
          simp [past]
        · rintro ⟨found, last⟩
          have inside := (List.getElem?_eq_some_iff.mp found).1
          rw [List.length_append, List.length_singleton] at inside
          by_contra other
          exact last statements.length (by omega) List.getElem?_concat_length
      · rw [if_neg defines, ih]
        have same (other : Nat) : (statements ++ [statement])[other]? = some (.label label) ↔
            statements[other]? = some (.label label) := by
          rw [List.getElem?_append]
          split
          · rfl
          · next beyond =>
              rw [List.getElem?_eq_none (Nat.le_of_not_lt beyond), List.getElem?_singleton]
              simp [defines]
        simp only [same, ne_eq]

theorem index?_ofProgram_eq_none_iff (program : Program) (label : String) :
    (ofProgram program).index? label = none ↔ .label label ∉ program := by
  constructor
  · intro missing member
    have found : ((ofProgram program).index? label).isSome :=
      index?_enter (.inr (Array.mem_def.mp member))
    rw [missing] at found
    cases found
  · intro missing
    rw [Option.eq_none_iff_forall_ne_some]
    intro index found
    have last := (index?_ofProgram_eq_some_iff program label index).mp found
    exact missing (Array.mem_of_getElem? last.1)

theorem locate_eq_ok_iff (program : Program) (destination : Destination) (index : Nat) :
    (ofProgram program).locate destination = .ok index ↔
      program.LastLabel destination.label index := by
  rw [← index?_ofProgram_eq_some_iff, locate]
  cases (ofProgram program).index? destination.label with
  | none => simp
  | some found => simp

/-- Where a label leads in another program, when its last definition has moved along. -/
theorem locate_map {program other : Program} {place : Nat → Nat} {destination : Destination}
    (moved : ∀ index, program.LastLabel destination.label index →
      other.LastLabel destination.label (place index))
    (missing : .label destination.label ∉ program → .label destination.label ∉ other) :
    (ofProgram other).locate destination =
      ((ofProgram program).locate destination).map place := by
  rw [locate, locate]
  cases found : (ofProgram program).index? destination.label with
  | none =>
      have absent := missing ((index?_ofProgram_eq_none_iff _ _).mp found)
      rw [(index?_ofProgram_eq_none_iff _ _).mpr absent]
      rfl
  | some index =>
      have last := moved index ((index?_ofProgram_eq_some_iff _ _ _).mp found)
      rw [(index?_ofProgram_eq_some_iff _ _ _).mpr last]
      rfl

end LabelTable

/-- A jump of a statement goes where the table sends its destination. -/
theorem Statement.locate_of_jump {σ : Type} [Host σ] {plan : Plan} {store : Store} {host : σ}
    {index : Nat} {statement : Statement}
    (jumps : ((statement.execute plan).exec store host).1.1 = .ok (.jump index)) :
    ∃ destination ∈ statement.destination?, plan.labels.locate destination = .ok index := by
  obtain ⟨effect, comes⟩ | ⟨_, proceeds⟩ := comesTo_or_call jumps
  · cases comes with
    | taken _ _ _ located | jump located => exact ⟨_, rfl, located⟩
  · cases proceeds

end LineScript
