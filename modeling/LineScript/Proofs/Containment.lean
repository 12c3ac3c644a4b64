import LineScript.Proofs.History
import LineScript.Proofs.Labels
import LineScript.World

/-!
Nothing is used outside its bounds. The number of operands is checked before a handler sees them,
and addresses and ranges are checked on the memory that is then accessed, so no standard builtin
reports a breach, whatever was registered, called or run before. A divisor is never zero when it is
divided by, and a jump never leaves the program.
-/

namespace LineScript

/-- A result that reports no use of operands or memory outside their bounds. -/
def Contained {α : Type} (result : Except RunError α) : Prop :=
  ∀ breach position, result ≠ .error ⟨.breach breach, position⟩

namespace Contained

theorem ok {α : Type} (value : α) : Contained (.ok value) :=
  fun _ _ same => by cases same

theorem error {α : Type} {error : RunError} (other : ∀ breach, error.fault ≠ .breach breach) :
    Contained (.error error : Except RunError α) := by
  intro breach position same
  cases same
  exact other breach rfl

theorem of_failed {α β : Type} {result : Except RunError α} {error : RunError}
    (contained : Contained result) (failed : result = .error error) :
    Contained (.error error : Except RunError β) := by
  refine .error fun breach same => contained breach error.position ?_
  rw [failed, ← same]

theorem bind {α β : Type} {result : Except RunError α} {next : α → Except RunError β}
    (first : Contained result) (rest : ∀ value, result = .ok value → Contained (next value)) :
    Contained (result >>= next) := by
  cases result with
  | error error => exact first.of_failed rfl
  | ok value => exact rest value rfl

theorem map {α β : Type} {result : Except RunError α} (first : Contained result) (f : α → β) :
    Contained (result.map f) := by
  cases result with
  | error error => exact first.of_failed rfl
  | ok value => exact .ok (f value)

end Contained

namespace Operand

theorem refuseText_contained (args : List Operand) : Contained (refuseText args) := by
  rw [refuseText]
  split
  · exact .error fun _ same => by cases same
  · exact .ok ()

theorem asVariable_contained (operand : Operand) : Contained operand.asVariable := by
  rw [asVariable]
  split
  · exact .ok _
  · exact .error fun _ same => by cases same

theorem asText_contained (operand : Operand) : Contained operand.asText := by
  rw [asText]
  split
  · exact .ok _
  · exact .error fun _ same => by cases same

end Operand

namespace Store

theorem evaluate_contained (store : Store) (operand : Operand) :
    Contained (store.evaluate operand) := by
  rw [evaluate]
  split
  · exact .ok _
  · exact .error fun _ same => by cases same
  · split
    · exact .ok _
    · exact .error fun _ same => by cases same

theorem cellOf_contained (store : Store) (operand : Operand) (call : Position) :
    Contained (store.cellOf operand call) := by
  have addresses := store.cellOf_addresses operand call
  generalize store.cellOf operand call = outcome at addresses ⊢
  cases addresses with
  | unresolved failed => exact (store.evaluate_contained operand).of_failed failed
  | inside _ _ _ => exact .ok _
  | outside _ _ => exact .error fun _ same => by cases same

theorem rangeEnd_contained (store : Store) (start : Nat) (length : Int) (call : Position) :
    Contained (store.rangeEnd start length call) := by
  rw [rangeEnd]
  split
  · exact .ok _
  · exact .error fun _ same => by cases same

theorem checkVariables_contained (store : Store) (args : List Operand) :
    Contained (store.checkVariables args) := by
  rw [checkVariables]
  split
  · exact .error fun _ same => by cases same
  · exact .ok ()

end Store

theorem LabelTable.locate_contained (table : LabelTable) (destination : Destination) :
    Contained (table.locate destination) := by
  rw [locate]
  split
  · exact .ok _
  · exact .error fun _ same => by cases same

theorem Arithmetic.evalAt_contained (op : Arithmetic) (lhs rhs : Int64) (position : Position) :
    Contained (op.evalAt lhs rhs position) := by
  rw [evalAt]
  split
  · exact .ok _
  · exact .error fun _ same => by cases same
  · exact .error fun _ same => by cases same

namespace Library

theorem select_contained (library : Library) (store : Store) (name : String)
    (args : List Operand) (call : Position) : Contained (library.select store name args call) := by
  rw [select]
  split
  · exact .error fun _ same => by cases same
  · split
    · exact .error fun _ same => by cases same
    · split
      · exact (store.checkVariables_contained args).map _
      · exact .ok _

/-- A call that reaches a builtin has as many operands as it takes. -/
theorem fits_of_select {library : Library} {store : Store} {name : String} {args : List Operand}
    {call : Position} {builtin : Builtin}
    (selected : library.select store name args call = .ok builtin) :
    builtin.arity.missed? args.length = none := by
  have found := find?_of_select selected
  rw [select, found] at selected
  cases fits : builtin.arity.missed? args.length with
  | none => rfl
  | some expected =>
      simp only [fits] at selected
      cases selected

end Library

theorem Arity.length_of_fits {count length : Nat} (fits : (fixed count).missed? length = none) :
    length = count := by
  by_contra differs
  rw [missed?, if_neg differs] at fits
  cases fits

namespace Builtin

theorem inspections_contained (store : Store) (args : List Operand) :
    Contained (args.mapM fun operand =>
      (shownValue store operand).map (inspectionLine operand)) := by
  induction args with
  | nil => exact .ok []
  | cons operand args ih =>
      have shown : Contained (shownValue store operand) := by
        rw [shownValue]
        split
        · exact .ok _
        · exact (store.evaluate_contained operand).map _
      rw [List.mapM_cons]
      apply Contained.bind (shown.map _)
      intro line _
      apply Contained.bind ih
      intro lines _
      exact .ok _

/-- The checks of a handler find nothing missing when it has the operands that its arity asks
for. -/
theorem effect_contained {name : String} {builtin : Builtin} (member : (name, builtin) ∈ standard)
    (store : Store) (call : Position) {args : List Operand}
    (fits : builtin.arity.missed? args.length = none) :
    Contained (effect store call name args) := by
  cases Standard.of_mem member with
  | showc | shown =>
      obtain ⟨operand, rfl⟩ := List.length_eq_one_iff.mp (Arity.length_of_fits fits)
      apply Contained.bind (Operand.refuseText_contained _)
      intro _ _
      apply Contained.bind (store.evaluate_contained operand)
      intro word _
      exact .ok _
  | input =>
      obtain ⟨target, rfl⟩ := List.length_eq_one_iff.mp (Arity.length_of_fits fits)
      apply Contained.bind (Operand.refuseText_contained _)
      intro _ _
      apply Contained.bind target.asVariable_contained
      intro name _
      exact .ok _
  | memset =>
      obtain ⟨cell, source, rfl⟩ := List.length_eq_two.mp (Arity.length_of_fits fits)
      apply Contained.bind (Operand.refuseText_contained _)
      intro _ _
      apply Contained.bind (store.cellOf_contained cell call)
      intro address _
      apply Contained.bind (store.evaluate_contained source)
      intro word _
      exact .ok _
  | memget =>
      obtain ⟨cell, target, rfl⟩ := List.length_eq_two.mp (Arity.length_of_fits fits)
      apply Contained.bind (Operand.refuseText_contained _)
      intro _ _
      apply Contained.bind (store.cellOf_contained cell call)
      intro address _
      apply Contained.bind target.asVariable_contained
      intro name _
      exact .ok _
  | debug =>
      apply Contained.bind (inspections_contained store args)
      intro lines _
      exact .ok _
  | readFile =>
      obtain ⟨file, cell, length, rfl⟩ := List.length_eq_three.mp (Arity.length_of_fits fits)
      apply Contained.bind (Operand.refuseText_contained _)
      intro _ _
      apply Contained.bind file.asText_contained
      intro path _
      apply Contained.bind length.asVariable_contained
      intro name _
      apply Contained.bind (store.cellOf_contained cell call)
      intro start _
      exact .ok _
  | writeFile =>
      obtain ⟨file, cell, length, rfl⟩ := List.length_eq_three.mp (Arity.length_of_fits fits)
      apply Contained.bind (Operand.refuseText_contained _)
      intro _ _
      apply Contained.bind file.asText_contained
      intro path _
      apply Contained.bind (store.cellOf_contained cell call)
      intro start _
      apply Contained.bind (store.evaluate_contained length)
      intro count _
      apply Contained.bind (store.rangeEnd_contained start count.toInt call)
      intro stop _
      exact .ok _

end Builtin

variable {σ : Type} [Host σ]

theorem Effect.perform_contained (effect : Effect) (store : Store) (host : σ) :
    Contained (effect.perform.exec store host).1.1 := by
  have performed := effect.perform_performed store host
  generalize effect.perform.exec store host = done at performed ⊢
  cases performed with
  | nothing | assigned _ _ | poked _ _ | written _ | taken _ _ | loaded _ _ | saved _ =>
      exact .ok ()
  | unwritten _ | unflushed _ | exhausted _ _ | unread _ _ | overfull _ _ | unloaded _
  | unsaved _ => exact .error fun _ same => by cases same

/-- A standard handler that is given as many operands as it takes uses nothing outside its
bounds. -/
theorem Builtin.handler_contained {name : String} {builtin : Builtin}
    (member : (name, builtin) ∈ standard) (call : Position) {args : List Operand}
    (fits : builtin.arity.missed? args.length = none) (store : Store) (host : σ) :
    Contained ((builtin.handler call args).exec store host).1.1 := by
  have checks := effect_contained member store call fits
  rw [handler_exec member]
  cases found : effect store call name args with
  | error error => exact checks.of_failed found
  | ok effect => exact effect.perform_contained store host

namespace Statement

theorem effect_contained {plan : Plan} {statement : Statement}
    (other : ∀ name args call, statement ≠ .call name args call) (store : Store) :
    Contained (statement.effect plan store) := by
  cases statement with
  | assign target value =>
      apply Contained.bind (store.evaluate_contained value)
      intro word _
      exact .ok _
  | compute target op lhs rhs =>
      apply Contained.bind (store.evaluate_contained lhs)
      intro left _
      apply Contained.bind (store.evaluate_contained rhs)
      intro right _
      apply Contained.bind (op.evalAt_contained left right rhs.position)
      intro word _
      exact .ok _
  | branch op lhs rhs destination =>
      apply Contained.bind (store.evaluate_contained lhs)
      intro left _
      apply Contained.bind (store.evaluate_contained rhs)
      intro right _
      split
      · apply Contained.bind (plan.labels.locate_contained destination)
        intro index _
        exact .ok _
      · exact .ok _
  | label name => exact .ok _
  | jump destination =>
      apply Contained.bind (plan.labels.locate_contained destination)
      intro index _
      exact .ok _
  | halt => exact .ok _
  | call name args call => exact absurd rfl (other name args call)

theorem execute_contained {plan : Plan} {statement : Statement}
    (other : ∀ name args call, statement ≠ .call name args call) (store : Store) (host : σ) :
    Contained ((statement.execute plan).exec store host).1.1 := by
  have calls : statement.CallsStandard plan.library := by
    cases statement with
    | call name args call => exact absurd rfl (other name args call)
    | _ => exact trivial
  have executed := execute_executed calls store host
  generalize (statement.execute plan).exec store host = result at executed ⊢
  cases executed with
  | rejected checks => exact (effect_contained other store).of_failed checks
  | failed effect checks performed =>
      exact (effect.perform_contained store host).of_failed (by rw [performed])
  | done effect checks performed => exact .ok _

end Statement

/-- A call in which something is used outside its bounds has reached a builtin that is not a
standard one, and it is the handler of that builtin which did so. -/
theorem Library.foreign_of_breach {library : Library} {name : String} {args : List Operand}
    {call place : Position} {breach : Breach} {store : Store} {host : σ}
    (breached : ((library.perform name args call).exec store host).1.1 =
      .error ⟨.breach breach, place⟩) :
    ∃ builtin, library.find? name = some builtin ∧
      (∀ standardName, (standardName, builtin) ∉ Builtin.standard) ∧
      ((builtin.handler call args).exec store host).1.1 = .error ⟨.breach breach, place⟩ := by
  rw [perform, Command.exec_bind, Command.exec_check] at breached
  cases selected : library.select store name args call with
  | error error =>
      rw [selected] at breached
      cases breached
      exact absurd selected (library.select_contained store name args call breach place)
  | ok builtin =>
      rw [selected] at breached
      refine ⟨builtin, find?_of_select selected, fun standardName member => ?_, breached⟩
      exact Builtin.handler_contained member call (fits_of_select selected) store host _ _ breached

namespace Statement

theorem breach_of_execute {plan : Plan} {statement : Statement} {store : Store} {host : σ}
    {breach : Breach} {place : Position}
    (breached : ((statement.execute plan).exec store host).1.1 = .error ⟨.breach breach, place⟩) :
    ∃ name args call, statement = .call name args call ∧
      ((plan.library.perform name args call).exec store host).1.1 =
        .error ⟨.breach breach, place⟩ := by
  by_cases calls : ∃ name args call, statement = .call name args call
  · obtain ⟨name, args, call, rfl⟩ := calls
    refine ⟨name, args, call, rfl, ?_⟩
    rw [execute, Command.exec_bind] at breached
    rcases done : (plan.library.perform name args call).exec store host with
      ⟨⟨error | _, left⟩, after⟩
    · rw [done] at breached
      cases breached
      rfl
    · rw [done] at breached
      cases breached
  · have other : ∀ name args call, statement ≠ .call name args call :=
      fun name args call same => calls ⟨name, args, call, same⟩
    exact absurd breached (execute_contained other store host breach place)

/-- A jump of a statement leads into the program that its labels are from. -/
theorem lt_size_of_jump {plan : Plan} (labels : plan.labels = .ofProgram plan.program)
    {statement : Statement} {store : Store} {host : σ} {index : Nat}
    (jumps : ((statement.execute plan).exec store host).1.1 = .ok (.jump index)) :
    index < plan.program.size := by
  obtain ⟨destination, _, located⟩ := locate_of_jump jumps
  rw [labels] at located
  exact ((LabelTable.locate_eq_ok_iff _ _ _).mp located).lt_size

end Statement

/-- The right operands for which an operator is defined. -/
def Arithmetic.Admits : Arithmetic → Int64 → Prop
  | .div, divisor | .mod, divisor => divisor ≠ 0
  | .pow, exponent => 0 ≤ exponent.toInt ∧ exponent.toInt < UInt32.size
  | _, _ => True

theorem Arithmetic.eval_defined_iff (op : Arithmetic) (lhs rhs : Int64) :
    (∃ word, op.eval lhs rhs = .ok word) ↔ op.Admits rhs := by
  cases op with
  | add | sub | mul => exact ⟨fun _ => trivial, fun _ => ⟨_, rfl⟩⟩
  | div | mod =>
      rw [Admits, eval]
      split
      · next zero => exact ⟨nofun, fun admits => absurd zero admits⟩
      · next nonzero => exact ⟨fun _ => nonzero, fun _ => ⟨_, rfl⟩⟩
  | pow =>
      rw [Admits, eval]
      split
      · next inside => exact ⟨fun _ => inside, fun _ => ⟨_, rfl⟩⟩
      · next outside => exact ⟨nofun, fun admits => absurd admits outside⟩

/-- The builtins that a session can know: the standard ones and those that were registered. -/
def Session.Known (actions : List Session.Action) (name : String) (builtin : Builtin) : Prop :=
  (name, builtin) ∈ Builtin.standard ∨ .register name builtin ∈ actions

/-- Where the parts of a deed come from: the statement and the labels from one program, and the
builtins from those that the session can know. -/
structure Deed.Grounded (actions : List Session.Action) (deed : Deed σ) : Prop where
  member : deed.statement ∈ deed.plan.program
  labels : deed.plan.labels = .ofProgram deed.plan.program
  library : ∀ name builtin, deed.plan.library.find? name = some builtin →
    Session.Known actions name builtin

theorem Session.history_grounded (cells : Nat) (host : σ) (actions : List Session.Action) :
    ∀ deed ∈ ((Session.new cells).history host actions).deeds, deed.Grounded actions := by
  let Kept (history : History σ) : Prop :=
    (∀ name builtin, history.session.library.find? name = some builtin →
      Known actions name builtin) ∧ ∀ deed ∈ history.deeds, deed.Grounded actions
  have kept : Kept ((Session.new cells).history host actions) := by
    apply List.foldlRecOn actions History.act (motive := Kept)
    · refine ⟨fun name builtin found => .inl ?_, fun deed present => ?_⟩
      · exact Library.mem_standard_of_find? found
      · cases present
    rintro history ⟨known, grounded⟩ action member
    cases action with
    | register name builtin =>
        refine ⟨fun other reached found => ?_, grounded⟩
        dsimp only [History.act] at found
        rw [Library.find?_add] at found
        split at found
        · next same =>
            subst same
            cases found
            exact .inr member
        · exact known other reached found
    | invoke name args call =>
        refine ⟨known, List.forall_mem_append.mpr ⟨grounded, ?_⟩⟩
        exact List.forall_mem_singleton.mpr ⟨Array.mem_singleton_self _, rfl, known⟩
    | run fuel program =>
        refine ⟨known, List.forall_mem_append.mpr ⟨grounded, fun deed now => ?_⟩⟩
        obtain ⟨planned, carried⟩ := Plan.of_mem_deeds now
        refine ⟨by rw [planned]; exact carried, by rw [planned]; rfl, ?_⟩
        rw [planned]
        exact known
  exact kept.2

/-- What a deed does without leaving its bounds. If operands or memory are used outside theirs, then
by the handler that the call has reached, which is of a builtin that the host has registered and
that is not a standard one; no operator computes a value where it is not defined; and a jump leads
to a statement. -/
structure Deed.Safe (actions : List Session.Action) (deed : Deed σ) : Prop where
  bounded : ∀ breach place, deed.result.1.1 = .error ⟨.breach breach, place⟩ →
    ∃ name args call builtin, deed.statement = .call name args call ∧
      deed.plan.library.find? name = some builtin ∧ .register name builtin ∈ actions ∧
      (∀ standardName, (standardName, builtin) ∉ Builtin.standard) ∧
      ((builtin.handler call args).exec deed.store deed.host).1.1 =
        .error ⟨.breach breach, place⟩
  defined : ∀ target op lhs rhs, deed.statement = .compute target op lhs rhs → deed.Succeeds →
    ∃ value, deed.store.evaluate rhs = .ok value ∧ op.Admits value
  lands : ∀ index, deed.result.1.1 = .ok (.jump index) → index < deed.plan.program.size

theorem Deed.Grounded.safe {actions : List Session.Action} {deed : Deed σ}
    (grounded : deed.Grounded actions) : deed.Safe actions := by
  constructor
  · -- Standard handlers are excluded, and the library holds nothing else that was not registered.
    intro breach place breached
    obtain ⟨name, args, call, calls, breached⟩ := Statement.breach_of_execute breached
    obtain ⟨builtin, found, foreign, breached⟩ := Library.foreign_of_breach breached
    obtain standard | registered := grounded.library name builtin found
    · exact absurd standard (foreign name)
    · exact ⟨name, args, call, builtin, calls, found, registered, foreign, breached⟩
  · intro target op lhs rhs computes succeeds
    have calls : deed.statement.CallsStandard deed.plan.library := by
      rw [computes]
      exact trivial
    obtain ⟨effect, succession, comes, _⟩ := succeeds.performed calls
    rw [computes] at comes
    cases comes with
    | compute first second computed =>
        exact ⟨_, second, (op.eval_defined_iff _ _).mp ⟨_, computed⟩⟩
  · exact fun index jumps => Statement.lt_size_of_jump grounded.labels jumps

/-- Nothing is used outside its bounds in any history of a session, except by builtins of the host's
own. -/
theorem Session.history_safe (cells : Nat) (host : σ) (actions : List Session.Action) :
    ∀ deed ∈ ((Session.new cells).history host actions).deeds, deed.Safe actions :=
  fun deed present => (history_grounded cells host actions deed present).safe

theorem Session.history_safe_quotient :
    let place := Position.start "<host>"
    let seven : Operand := ⟨.integer 7, ⟨.integer, "7", 1, place⟩⟩
    let two : Operand := ⟨.integer 2, ⟨.integer, "2", 1, place⟩⟩
    let idle : Builtin := ⟨.any, false, fun _ _ => pure ()⟩
    let program : Program := #[.compute "half" .div seven two]
    let actions : List Session.Action :=
      [.register "idle" idle, .invoke "idle" [seven] place, .run 1 program]
    let world := World.quiet [] FileTable.empty
    let deed : Deed (World FileTable) :=
      ⟨.new (Library.standard.add "idle" idle) program, .compute "half" .div seven two, .new 0,
        world⟩
    ((Session.new 0).history world actions).deeds[1]? = some deed ∧ deed.Safe actions := by
  intro place seven two idle program actions world deed
  have carried : ((Session.new 0).history world actions).deeds[1]? = some deed := by rfl
  exact ⟨carried, history_safe 0 world actions deed (List.mem_of_getElem? carried)⟩

end LineScript
