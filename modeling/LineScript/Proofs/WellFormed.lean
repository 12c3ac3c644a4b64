import LineScript.Proofs.Execute
import Mathlib.Data.List.Forall2

/-!
Well-formed programs: their jumps lead to labels, their calls suit the standard builtins, and the
variables that they read exist. The checks of such a program's statements fail only over values and
memory bounds.
-/

namespace LineScript

/-- The faults of a program that is put together well: those of values and of the host. -/
def RunFault.Expected : RunFault → Prop
  | .divisionByZero | .invalidExponent _ | .addressOutOfBounds _ _ | .rangeOutOfBounds _ _ _
  | .endOfInput | .input _ | .output _ | .fileSystem _ _ => True
  | _ => False

/-- What a statement wants of an operand. -/
inductive Role
  | number
  | target
  | path
  | shown
deriving DecidableEq

namespace Role

/-- Whether an operand has the shape that is wanted. -/
def Suits : Role → Operand → Prop
  | .number, operand => operand.isText = false
  | .target, operand => ∃ name, operand.term = .variable name
  | .path, operand => ∃ content, operand.term = .text content
  | .shown, _ => True

/-- Whether a variable in this role is read. -/
def reads : Role → Bool
  | .number | .shown => true
  | .target | .path => false

/-- The operand suits its role, and exists if it is a variable that is read. -/
structure Ready (store : Store) (role : Role) (operand : Operand) : Prop where
  suits : role.Suits operand
  defined : role.reads = true → ∀ name, operand.term = .variable name →
    (store.value? name).isSome

end Role

/-- The roles of the operands of a standard builtin. Only `debug` takes as many as there are. -/
def Builtin.roles (count : Nat) : String → List Role
  | "showc" | "shown" => [.number]
  | "input" => [.target]
  | "memset" => [.number, .number]
  | "memget" => [.number, .target]
  | "debug" => List.replicate count .shown
  | "read_file" => [.path, .number, .target]
  | "write_file" => [.path, .number, .number]
  | _ => []

namespace Statement

/-- The operands of a statement, each with its role. -/
def parts : Statement → List (Role × Operand)
  | .assign _ value => [(.number, value)]
  | .compute _ _ lhs rhs | .branch _ lhs rhs _ => [(.number, lhs), (.number, rhs)]
  | .label _ | .jump _ | .halt => []
  | .call name args _ => (Builtin.roles args.length name).zip args

def destination? : Statement → Option Destination
  | .branch _ _ _ destination | .jump destination => some destination
  | _ => none

/-- A call names a standard builtin and has as many operands as it takes. -/
def CallsFully (library : Library) : Statement → Prop
  | .call name args _ => ∃ builtin, (name, builtin) ∈ Builtin.standard ∧
      library.find? name = some builtin ∧ args.length = (Builtin.roles args.length name).length
  | _ => True

end Statement

structure Program.WellFormed (program : Program) (library : Library) (store : Store) : Prop where
  labels : ∀ statement ∈ program, ∀ destination ∈ statement.destination?,
    Statement.label destination.label ∈ program
  shapes : ∀ statement ∈ program, ∀ part ∈ statement.parts, part.1.Suits part.2
  calls : ∀ statement ∈ program, statement.CallsFully library
  defined : ∀ statement ∈ program, ∀ part ∈ statement.parts, part.1.reads = true →
    ∀ name, part.2.term = .variable name → (store.value? name).isSome

/-- The second store has all variables of the first. -/
def Store.Keeps (before after : Store) : Prop :=
  ∀ name, (before.value? name).isSome → (after.value? name).isSome

namespace Store.Keeps

theorem refl (store : Store) : store.Keeps store :=
  fun _ known => known

theorem trans {first second third : Store} (keeps : first.Keeps second)
    (keeps' : second.Keeps third) : first.Keeps third :=
  fun name known => keeps' name (keeps name known)

theorem assign (store : Store) (name : String) (value : Int64) :
    store.Keeps (store.assign name value) := by
  intro other known
  rw [value?_assign]
  by_cases same : name = other
  · rw [if_pos same]
    rfl
  · rw [if_neg same]
    exact known

end Store.Keeps

theorem Program.WellFormed.keeps {program : Program} {library : Library} {before after : Store}
    (wellFormed : program.WellFormed library before) (keeps : before.Keeps after) :
    program.WellFormed library after :=
  ⟨wellFormed.labels, wellFormed.shapes, wellFormed.calls,
    fun statement member part inside reads name named =>
      keeps name (wellFormed.defined statement member part inside reads name named)⟩

theorem Program.WellFormed.ready {program : Program} {library : Library} {store : Store}
    (wellFormed : program.WellFormed library store) {statement : Statement}
    (member : statement ∈ program) :
    ∀ part ∈ statement.parts, Role.Ready store part.1 part.2 :=
  fun part inside => ⟨wellFormed.shapes statement member part inside,
    wellFormed.defined statement member part inside⟩

namespace LabelTable

theorem index?_enter {statements : List Statement} {table : LabelTable}
    {shadowings : List Shadowing} {index : Nat} {label : String}
    (entered : (table.index? label).isSome ∨ Statement.label label ∈ statements) :
    ((enter table shadowings index statements).1.index? label).isSome := by
  induction statements generalizing table shadowings index with
  | nil =>
      obtain known | member := entered
      · exact known
      · cases member
  | cons statement statements ih =>
      cases statement with
      | label name =>
          apply ih
          rw [index?_define]
          by_cases same : name = label
          · rw [if_pos same]
            exact .inl rfl
          · rw [if_neg same]
            obtain known | member := entered
            · exact .inl known
            · obtain here | later := List.mem_cons.mp member
              · cases here
                exact absurd rfl same
              · exact .inr later
      | _ =>
          apply ih
          obtain known | member := entered
          · exact .inl known
          · obtain here | later := List.mem_cons.mp member
            · cases here
            · exact .inr later

theorem locate_ofProgram {program : Program} {destination : Destination}
    (member : Statement.label destination.label ∈ program) :
    ∃ index, (ofProgram program).locate destination = .ok index := by
  have entered : ((ofProgram program).index? destination.label).isSome :=
    index?_enter (.inr (Array.mem_def.mp member))
  obtain ⟨index, found⟩ := Option.isSome_iff_exists.mp entered
  exact ⟨index, by rw [locate, found]⟩

end LabelTable

/-- A result that can only be an error that is to be expected. -/
def Permitted {α : Type} (result : Except RunError α) : Prop :=
  ∀ error, result = .error error → error.fault.Expected

namespace Permitted

theorem ok {α : Type} (value : α) : Permitted (.ok value : Except RunError α) := nofun

theorem error {α : Type} {error : RunError} (expected : error.fault.Expected) :
    Permitted (.error error : Except RunError α) := by
  intro other same
  cases same
  exact expected

theorem of_eq_ok {α : Type} {result : Except RunError α} {value : α} (found : result = .ok value) :
    Permitted result := by
  rw [found]
  exact ok value

theorem bind {α β : Type} {result : Except RunError α} {next : α → Except RunError β}
    (first : Permitted result) (rest : ∀ value, Permitted (next value)) :
    Permitted (result >>= next) := by
  cases result with
  | error error => exact fun other same => first other (by cases same; rfl)
  | ok value => exact rest value

end Permitted

namespace Role.Ready

variable {store : Store} {operand : Operand}

theorem lacks {role : Role} (ready : Ready store role operand) (reads : role.reads = true) :
    store.lacks operand = false := by
  obtain ⟨term, token⟩ := operand
  obtain _ | _ | name := term
  · rfl
  · rfl
  · have known := ready.defined reads name rfl
    simp only [Store.lacks, Option.isNone_eq_false_iff]
    exact known

theorem evaluate (ready : Ready store .number operand) :
    ∃ value, store.evaluate operand = .ok value := by
  obtain ⟨_ | _ | name, token⟩ := operand
  · exact ⟨_, rfl⟩
  · exact absurd ready.suits nofun
  · obtain ⟨value, found⟩ := Option.isSome_iff_exists.mp (ready.defined rfl name rfl)
    exact ⟨value, by simp only [Store.evaluate, found]⟩

theorem evaluate_permitted (ready : Ready store .number operand) :
    Permitted (store.evaluate operand) := by
  obtain ⟨value, found⟩ := ready.evaluate
  exact .of_eq_ok found

theorem cellOf_permitted (ready : Ready store .number operand) (call : Position) :
    Permitted (store.cellOf operand call) := by
  obtain ⟨value, found⟩ := ready.evaluate
  have addresses := store.cellOf_addresses operand call
  generalize store.cellOf operand call = outcome at addresses ⊢
  cases addresses with
  | unresolved failed =>
      rw [found] at failed
      cases failed
  | inside _ _ _ => exact .ok _
  | outside _ _ => exact .error trivial

theorem asVariable_permitted (ready : Ready store .target operand) :
    Permitted operand.asVariable := by
  obtain ⟨name, named⟩ := ready.suits
  rw [Operand.asVariable, named]
  exact .ok name

theorem asText_permitted (ready : Ready store .path operand) : Permitted operand.asText := by
  obtain ⟨content, said⟩ := ready.suits
  rw [Operand.asText, said]
  exact .ok content

theorem shownValue_permitted (ready : Ready store .shown operand) :
    Permitted (Builtin.shownValue store operand) := by
  obtain ⟨_ | content | name, token⟩ := operand
  · exact .ok _
  · exact .ok content
  · obtain ⟨value, found⟩ := Option.isSome_iff_exists.mp (ready.defined rfl name rfl)
    simp only [Builtin.shownValue, Store.evaluate, found]
    exact .ok _

theorem target_plain (ready : Ready store .target operand) : operand.isText = false := by
  obtain ⟨name, named⟩ := ready.suits
  rw [Operand.isText, named]

theorem of_mem {roles : List Role} {args : List Operand}
    (ready : List.Forall₂ (Ready store) roles args) :
    ∀ operand ∈ args, ∃ role ∈ roles, Ready store role operand := by
  induction ready with
  | nil => exact nofun
  | cons first _ ih =>
      intro operand inside
      obtain _ | ⟨_, later⟩ := inside
      · exact ⟨_, List.mem_cons_self, first⟩
      · obtain ⟨role, played, fits⟩ := ih operand later
        exact ⟨role, List.mem_cons_of_mem _ played, fits⟩

end Role.Ready

theorem Operand.refuseText_permitted {args : List Operand}
    (plain : ∀ operand ∈ args, operand.isText = false) : Permitted (refuseText args) := by
  have none : args.find? isText = none :=
    List.find?_eq_none.mpr fun operand member => by rw [plain operand member]; decide
  rw [refuseText, none]
  exact .ok ()

theorem Operand.refuseText_pair {first second : Operand} (plain : first.isText = false)
    (plain' : second.isText = false) : Permitted (refuseText [first, second]) :=
  refuseText_permitted (List.forall_mem_cons.mpr ⟨plain, List.forall_mem_singleton.mpr plain'⟩)

theorem Store.rangeEnd_permitted (store : Store) (start : Nat) (length : Int) (call : Position) :
    Permitted (store.rangeEnd start length call) := by
  rw [rangeEnd]
  split
  · exact .ok _
  · exact .error trivial

theorem Arithmetic.evalAt_permitted (op : Arithmetic) (lhs rhs : Int64) (position : Position) :
    Permitted (op.evalAt lhs rhs position) := by
  intro error failed
  rw [evalAt] at failed
  cases result : op.eval lhs rhs with
  | ok value =>
      rw [result] at failed
      cases failed
  | error fault =>
      rw [result] at failed
      cases fault with
      | divisionByZero =>
          cases failed
          exact trivial
      | invalidExponent exponent =>
          cases failed
          exact trivial

namespace Builtin

theorem missed?_of_standard {name : String} {builtin : Builtin}
    (member : (name, builtin) ∈ standard) {count : Nat}
    (full : count = (roles count name).length) : builtin.arity.missed? count = none := by
  cases Standard.of_mem member with
  | debug => rfl
  | showc | shown | input | memset | memget | readFile | writeFile => exact if_pos full

/-- The gate looks at all variables of a call only where all of them are read. -/
theorem reads_of_validate {name : String} {builtin : Builtin}
    (member : (name, builtin) ∈ standard) (validates : builtin.validate = true) (count : Nat) :
    ∀ role ∈ roles count name, role.reads = true := by
  cases Standard.of_mem member with
  | input | memget | readFile | writeFile => cases validates
  | showc | shown | memset => simp [roles, Role.reads]
  | debug =>
      intro role inside
      rw [List.eq_of_mem_replicate inside]
      rfl

theorem inspection_permitted {store : Store} {args : List Operand}
    (ready : ∀ operand ∈ args, Role.Ready store .shown operand) :
    Permitted (args.mapM fun operand =>
      (shownValue store operand).map (inspectionLine operand)) := by
  induction args with
  | nil => exact .ok []
  | cons operand args ih =>
      rw [List.forall_mem_cons] at ready
      rw [List.mapM_cons]
      refine .bind ?_ fun _ => .bind (ih ready.2) fun _ => .ok _
      have shown := ready.1.shownValue_permitted
      cases result : shownValue store operand with
      | error error =>
          rw [result] at shown
          exact shown
      | ok value => exact .ok _

theorem effect_permitted {store : Store} {name : String} {builtin : Builtin}
    (member : (name, builtin) ∈ standard) (call : Position) {args : List Operand}
    (ready : List.Forall₂ (Role.Ready store) (roles args.length name) args) :
    Permitted (effect store call name args) := by
  cases Standard.of_mem member with
  | showc | shown =>
      obtain _ | ⟨operand, _ | _⟩ := ready
      apply Permitted.bind
        (Operand.refuseText_permitted (List.forall_mem_singleton.mpr operand.suits))
      intro _
      apply Permitted.bind operand.evaluate_permitted
      intro value
      exact .ok _
  | input =>
      obtain _ | ⟨target, _ | _⟩ := ready
      apply Permitted.bind
        (Operand.refuseText_permitted (List.forall_mem_singleton.mpr target.target_plain))
      intro _
      apply Permitted.bind target.asVariable_permitted
      intro name
      exact .ok _
  | memset =>
      obtain _ | ⟨cell, _ | ⟨source, _ | _⟩⟩ := ready
      apply Permitted.bind (Operand.refuseText_pair cell.suits source.suits)
      intro _
      apply Permitted.bind (cell.cellOf_permitted call)
      intro address
      apply Permitted.bind source.evaluate_permitted
      intro value
      exact .ok _
  | memget =>
      obtain _ | ⟨cell, _ | ⟨target, _ | _⟩⟩ := ready
      apply Permitted.bind (Operand.refuseText_pair cell.suits target.target_plain)
      intro _
      apply Permitted.bind (cell.cellOf_permitted call)
      intro address
      apply Permitted.bind target.asVariable_permitted
      intro name
      exact .ok _
  | debug =>
      refine Permitted.bind (inspection_permitted ?_) fun lines => .ok _
      intro operand inside
      obtain ⟨role, played, shown⟩ := Role.Ready.of_mem ready operand inside
      rw [List.eq_of_mem_replicate played] at shown
      exact shown
  | readFile =>
      obtain _ | ⟨file, _ | ⟨cell, _ | ⟨length, _ | _⟩⟩⟩ := ready
      apply Permitted.bind (Operand.refuseText_pair cell.suits length.target_plain)
      intro _
      apply Permitted.bind file.asText_permitted
      intro path
      apply Permitted.bind length.asVariable_permitted
      intro name
      apply Permitted.bind (cell.cellOf_permitted call)
      intro start
      exact .ok _
  | writeFile =>
      obtain _ | ⟨file, _ | ⟨cell, _ | ⟨length, _ | _⟩⟩⟩ := ready
      apply Permitted.bind (Operand.refuseText_pair cell.suits length.suits)
      intro _
      apply Permitted.bind file.asText_permitted
      intro path
      apply Permitted.bind (cell.cellOf_permitted call)
      intro start
      apply Permitted.bind length.evaluate_permitted
      intro count
      apply Permitted.bind (store.rangeEnd_permitted start count.toInt call)
      intro stop
      exact .ok _

end Builtin

theorem Store.checkVariables_ok {store : Store} {args : List Operand}
    (present : ∀ operand ∈ args, store.lacks operand = false) :
    store.checkVariables args = .ok () := by
  have none : args.find? store.lacks = none :=
    List.find?_eq_none.mpr fun operand member => by rw [present operand member]; decide
  rw [checkVariables, none]

theorem Library.select_ok {library : Library} {store : Store} {name : String} {builtin : Builtin}
    (member : (name, builtin) ∈ Builtin.standard) (found : library.find? name = some builtin)
    {args : List Operand}
    (ready : List.Forall₂ (Role.Ready store) (Builtin.roles args.length name) args)
    (call : Position) : library.select store name args call = .ok builtin := by
  rw [select, found]
  simp only [Builtin.missed?_of_standard member ready.length_eq.symm]
  by_cases validates : builtin.validate = true
  · have present : ∀ operand ∈ args, store.lacks operand = false := by
      intro operand inside
      obtain ⟨role, played, fits⟩ := Role.Ready.of_mem ready operand inside
      exact fits.lacks (Builtin.reads_of_validate member validates _ role played)
    rw [if_pos validates, Store.checkVariables_ok present]
    rfl
  · rw [if_neg validates]

theorem Program.WellFormed.operands_ready {program : Program} {library : Library} {store : Store}
    (wellFormed : program.WellFormed library store) {name : String} {args : List Operand}
    {position : Position} (member : .call name args position ∈ program) :
    List.Forall₂ (Role.Ready store) (Builtin.roles args.length name) args := by
  obtain ⟨_, _, _, full⟩ := wellFormed.calls _ member
  have ready := wellFormed.ready member
  exact List.forall₂_iff_zip.mpr ⟨full.symm, fun inside => ready _ inside⟩

theorem Statement.effect_permitted {program : Program} {library : Library} {store : Store}
    (wellFormed : program.WellFormed library store) {statement : Statement}
    (member : statement ∈ program) :
    Permitted (statement.effect (.new library program) store) := by
  have ready := wellFormed.ready member
  have labels := wellFormed.labels statement member
  cases statement with
  | assign target value =>
      simp only [parts, List.forall_mem_singleton] at ready
      apply Permitted.bind ready.evaluate_permitted
      intro value
      exact .ok _
  | compute target op lhs rhs =>
      simp only [parts, List.forall_mem_cons] at ready
      apply Permitted.bind ready.1.evaluate_permitted
      intro left
      apply Permitted.bind ready.2.1.evaluate_permitted
      intro right
      apply Permitted.bind (op.evalAt_permitted left right rhs.position)
      intro value
      exact .ok _
  | branch op lhs rhs destination =>
      simp only [parts, List.forall_mem_cons] at ready
      apply Permitted.bind ready.1.evaluate_permitted
      intro left
      apply Permitted.bind ready.2.1.evaluate_permitted
      intro right
      by_cases holds : op.eval left right
      · obtain ⟨index, found⟩ := LabelTable.locate_ofProgram (labels destination rfl)
        rw [if_pos holds]
        exact .bind (.of_eq_ok found) fun _ => .ok _
      · rw [if_neg holds]
        exact .ok _
  | label name => exact .ok _
  | jump destination =>
      obtain ⟨index, found⟩ := LabelTable.locate_ofProgram (labels destination rfl)
      exact .bind (.of_eq_ok found) fun _ => .ok _
  | halt => exact .ok _
  | call name args position =>
      obtain ⟨builtin, standard, found, _⟩ := wellFormed.calls _ member
      have ready := wellFormed.operands_ready member
      apply Permitted.bind (.of_eq_ok (Library.select_ok standard found ready position))
      intro _
      apply Permitted.bind (Builtin.effect_permitted standard position ready)
      intro effect
      exact .ok _

end LineScript
