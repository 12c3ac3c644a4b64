import LineScript.Proofs.Containment

/-!
The gate in front of the builtins. A library is the outcome of registrations made one after the
other, and the latest one of a name counts. A call reaches a handler or is turned away, and a rule
with one constructor for each of its verdicts says which and why.
-/

namespace LineScript

namespace Arity

theorem missed?_eq_none_iff (arity : Arity) (found : Nat) :
    arity.missed? found = none ↔ arity = .any ∨ arity = .fixed found := by
  cases arity with
  | any => simp [missed?]
  | fixed expected => simp [missed?, eq_comm]

theorem missed?_eq_some_iff (arity : Arity) (found expected : Nat) :
    arity.missed? found = some expected ↔ arity = .fixed expected ∧ found ≠ expected := by
  cases arity with
  | any => simp [missed?]
  | fixed count =>
      rw [missed?, fixed.injEq]
      split
      · next same =>
          constructor
          · intro missed
            cases missed
          · rintro ⟨rfl, differs⟩
            exact absurd same differs
      · next differs =>
          rw [Option.some.injEq]
          exact ⟨fun same => ⟨same, same ▸ differs⟩, And.left⟩

end Arity

namespace Store

/-- The operand is no variable, or it is a variable that has a value. -/
def Knows (store : Store) (operand : Operand) : Prop :=
  ∀ name, operand.term = .variable name → ∃ value, store.value? name = some value

theorem knows_iff (store : Store) (operand : Operand) :
    store.Knows operand ↔ store.lacks operand = false := by
  rw [Knows, lacks]
  split
  · next name isVariable =>
      rw [Option.isNone_eq_false_iff, Option.isSome_iff_exists]
      constructor
      · exact fun knows => knows name isVariable
      · intro found other same
        rw [isVariable] at same
        cases same
        exact found
  · next other =>
      constructor
      · exact fun _ => rfl
      · exact fun _ name isVariable => absurd isVariable (other name)

theorem exists_variable_of_lacks {store : Store} {operand : Operand}
    (lacks : store.lacks operand = true) :
    ∃ name, operand.term = .variable name ∧ store.value? name = none := by
  rw [Store.lacks] at lacks
  split at lacks
  · next name isVariable => exact ⟨name, isVariable, Option.isNone_iff_eq_none.mp lacks⟩
  · cases lacks

theorem checkVariables_of_knows {store : Store} {args : List Operand}
    (known : ∀ operand ∈ args, store.Knows operand) : store.checkVariables args = .ok () := by
  have none : args.find? store.lacks = none := by
    rw [List.find?_eq_none]
    intro operand member
    rw [Bool.not_eq_true, ← knows_iff]
    exact known operand member
  rw [checkVariables, none]

theorem checkVariables_of_missing {store : Store} {before after : List Operand}
    {operand : Operand} {name : String} (known : ∀ earlier ∈ before, store.Knows earlier)
    (isVariable : operand.term = .variable name) (missing : store.value? name = none) :
    store.checkVariables (before ++ operand :: after) =
      .error ⟨.undefinedVariable name, operand.position⟩ := by
  have first : (before ++ operand :: after).find? store.lacks = some operand := by
    rw [List.find?_eq_some_iff_append]
    refine ⟨?_, before, after, rfl, fun earlier member => ?_⟩
    · rw [lacks, isVariable]
      exact Option.isNone_iff_eq_none.mpr missing
    · rw [(store.knows_iff earlier).mp (known earlier member)]
      rfl
  obtain ⟨term, token⟩ := operand
  cases isVariable
  rw [checkVariables, first]
  rfl

/-- Either all operands are known, or one of them is the first that is not. -/
theorem knows_or_missing (store : Store) (args : List Operand) :
    (∀ operand ∈ args, store.Knows operand) ∨
      ∃ before operand after name, args = before ++ operand :: after ∧
        (∀ earlier ∈ before, store.Knows earlier) ∧ operand.term = .variable name ∧
        store.value? name = none := by
  cases first : args.find? store.lacks with
  | none =>
      rw [List.find?_eq_none] at first
      left
      intro operand member
      rw [knows_iff]
      exact Bool.not_eq_true _ ▸ first operand member
  | some operand =>
      obtain ⟨lacks, before, after, split, known⟩ := List.find?_eq_some_iff_append.mp first
      obtain ⟨name, isVariable, missing⟩ := exists_variable_of_lacks lacks
      refine .inr ⟨before, operand, after, name, split, fun earlier member => ?_, isVariable,
        missing⟩
      rw [knows_iff, ← Bool.not_eq_true']
      exact known earlier member

end Store

namespace Library

/-- The library that registrations leave, made in the order of the list. -/
def ofRegistrations (registrations : List (String × Builtin)) : Library :=
  registrations.foldl (fun library entry => library.add entry.1 entry.2) .empty

/-- The builtin was registered under the name, and no other was under that name later. -/
def Registered (registrations : List (String × Builtin)) (name : String) (builtin : Builtin) :
    Prop :=
  ∃ earlier later, registrations = earlier ++ (name, builtin) :: later ∧
    ∀ entry ∈ later, entry.1 ≠ name

theorem ofRegistrations_concat (registrations : List (String × Builtin))
    (entry : String × Builtin) :
    ofRegistrations (registrations ++ [entry]) =
      (ofRegistrations registrations).add entry.1 entry.2 := by
  rw [ofRegistrations, List.foldl_concat, ← ofRegistrations]

section Registrations

variable {registrations : List (String × Builtin)} {name : String} {builtin : Builtin}

theorem registered_concat_iff (entry : String × Builtin) :
    Registered (registrations ++ [entry]) name builtin ↔
      entry = (name, builtin) ∨ entry.1 ≠ name ∧ Registered registrations name builtin := by
  constructor
  · rintro ⟨earlier, later, split, other⟩
    obtain ⟨rfl, rfl, same⟩ | ⟨rest, rfl, rfl⟩ := List.of_concat_eq_append_cons split
    · exact .inl same
    · rw [List.forall_mem_append, List.forall_mem_singleton] at other
      exact .inr ⟨other.2, earlier, rest, rfl, other.1⟩
  · rintro (rfl | ⟨last, earlier, later, rfl, other⟩)
    · exact ⟨registrations, [], rfl, fun _ member => nomatch member⟩
    · refine ⟨earlier, later ++ [entry], by rw [List.append_assoc, List.cons_append], ?_⟩
      rw [List.forall_mem_append, List.forall_mem_singleton]
      exact ⟨other, last⟩

/-- Looking up a name finds the latest registration of it, by induction on the registrations from
the last one. -/
theorem find?_ofRegistrations_iff :
    (ofRegistrations registrations).find? name = some builtin ↔
      Registered registrations name builtin := by
  induction registrations using List.reverseRecOn with
  | nil =>
      constructor
      · intro found
        simp [ofRegistrations, empty, find?] at found
      · rintro ⟨earlier, later, split, _⟩
        exact absurd split.symm (List.append_ne_nil_of_right_ne_nil earlier (List.cons_ne_nil _ _))
  | append_singleton registrations entry ih =>
      obtain ⟨last, added⟩ := entry
      rw [ofRegistrations_concat, find?_add, registered_concat_iff, Prod.mk.injEq]
      by_cases same : last = name
      · rw [if_pos same, Option.some.injEq]
        exact ⟨fun latest => .inl ⟨same, latest⟩,
          fun either => either.elim And.right fun other => absurd same other.1⟩
      · rw [if_neg same, ih]
        exact ⟨fun registered => .inr ⟨same, registered⟩,
          fun either => either.elim (fun latest => absurd latest.1 same) And.right⟩

theorem find?_ofRegistrations_eq_none_iff :
    (ofRegistrations registrations).find? name = none ↔
      ∀ entry ∈ registrations, entry.1 ≠ name := by
  induction registrations using List.reverseRecOn with
  | nil => simp [ofRegistrations, empty, find?]
  | append_singleton registrations entry ih =>
      rw [ofRegistrations_concat, find?_add, List.forall_mem_append, List.forall_mem_singleton]
      by_cases same : entry.1 = name
      · rw [if_pos same]
        constructor
        · intro found
          cases found
        · exact fun others => absurd same others.2
      · rw [if_neg same, ih]
        exact ⟨fun others => ⟨others, same⟩, And.left⟩

end Registrations

/-- What becomes of a call of the name. -/
inductive Gate (registrations : List (String × Builtin)) (store : Store) (name : String)
    (args : List Operand) (call : Position) : Except RunError Builtin → Prop
  | opens {builtin : Builtin} : Registered registrations name builtin →
      builtin.arity = .any ∨ builtin.arity = .fixed args.length →
      (builtin.validate = true → ∀ operand ∈ args, store.Knows operand) →
      Gate registrations store name args call (.ok builtin)
  | unknown : (∀ entry ∈ registrations, entry.1 ≠ name) →
      Gate registrations store name args call (.error ⟨.undefinedFunction name, call⟩)
  | miscounted {builtin : Builtin} {expected : Nat} : Registered registrations name builtin →
      builtin.arity = .fixed expected → args.length ≠ expected →
      Gate registrations store name args call
        (.error ⟨.argumentCount name expected args.length, call⟩)
  | undefined {builtin : Builtin} {before after : List Operand} {operand : Operand}
      {absent : String} : Registered registrations name builtin →
      builtin.arity = .any ∨ builtin.arity = .fixed args.length → builtin.validate = true →
      args = before ++ operand :: after → (∀ earlier ∈ before, store.Knows earlier) →
      operand.term = .variable absent → store.value? absent = none →
      Gate registrations store name args call
        (.error ⟨.undefinedVariable absent, operand.position⟩)

namespace Gate

variable {registrations : List (String × Builtin)} {store : Store} {name : String}
  {args : List Operand} {call : Position} {verdict other : Except RunError Builtin}

/-- Whatever the rule says is what the library answers. -/
theorem select_eq (gate : Gate registrations store name args call verdict) :
    (ofRegistrations registrations).select store name args call = verdict := by
  cases gate with
  | unknown absent => rw [select, find?_ofRegistrations_eq_none_iff.mpr absent]
  | miscounted registered fixed differs =>
      simp only [select, find?_ofRegistrations_iff.mpr registered,
        (Arity.missed?_eq_some_iff _ _ _).mpr ⟨fixed, differs⟩]
  | @opens builtin registered fits known =>
      simp only [select, find?_ofRegistrations_iff.mpr registered,
        (Arity.missed?_eq_none_iff _ _).mpr fits]
      by_cases validates : builtin.validate = true
      · rw [if_pos validates, Store.checkVariables_of_knows (known validates)]
        rfl
      · rw [if_neg validates]
  | undefined registered fits validates split known isVariable missing =>
      subst split
      simp only [select, find?_ofRegistrations_iff.mpr registered,
        (Arity.missed?_eq_none_iff _ _).mpr fits, if_pos validates,
        Store.checkVariables_of_missing known isVariable missing]
      rfl

theorem unique (gate : Gate registrations store name args call verdict)
    (gate' : Gate registrations store name args call other) : other = verdict :=
  gate'.select_eq.symm.trans gate.select_eq

end Gate

theorem exists_gate (registrations : List (String × Builtin)) (store : Store) (name : String)
    (args : List Operand) (call : Position) :
    ∃ verdict, Gate registrations store name args call verdict := by
  cases found : (ofRegistrations registrations).find? name with
  | none => exact ⟨_, .unknown (find?_ofRegistrations_eq_none_iff.mp found)⟩
  | some builtin =>
      have registered := find?_ofRegistrations_iff.mp found
      cases missed : builtin.arity.missed? args.length with
      | some expected =>
          obtain ⟨fixed, differs⟩ := (Arity.missed?_eq_some_iff _ _ _).mp missed
          exact ⟨_, .miscounted registered fixed differs⟩
      | none =>
          have fits := (Arity.missed?_eq_none_iff _ _).mp missed
          by_cases validates : builtin.validate = true
          · obtain known | ⟨before, operand, after, absent, split, known, isVariable, missing⟩ :=
              store.knows_or_missing args
            · exact ⟨_, .opens registered fits fun _ => known⟩
            · exact ⟨_, .undefined registered fits validates split known isVariable missing⟩
          · exact ⟨_, .opens registered fits fun asked => absurd asked validates⟩

/-- A call is the handler that it reaches, started on the store as it was, or no more than the error
of the gate. -/
theorem perform_on (library : Library) (name : String) (args : List Operand) (call : Position)
    (store : Store) :
    (library.perform name args call).on store =
      match library.select store name args call with
      | .ok builtin => (builtin.handler call args).on store
      | .error error => pure (.error error, store) := by
  have started : (library.perform name args call).on store =
      (do
        let builtin ← ofExcept (library.select store name args call)
        builtin.handler call args : Command Unit).on store := rfl
  rw [started]
  cases library.select store name args call <;> rfl

/-- All that a call takes from the library is what is kept under its name. -/
theorem perform_congr {library other : Library} {name : String}
    (same : library.find? name = other.find? name) (args : List Operand) (call : Position) :
    library.perform name args call = other.perform name args call := by
  simp only [perform, select, same]

theorem find?_foldl_congr (registrations : List (String × Builtin)) {library other : Library}
    {name : String} (same : library.find? name = other.find? name) :
    (registrations.foldl (fun library entry => library.add entry.1 entry.2) library).find? name =
      (registrations.foldl (fun library entry => library.add entry.1 entry.2)
        other).find? name := by
  induction registrations generalizing library other with
  | nil => exact same
  | cons entry registrations ih =>
      apply ih
      rw [find?_add, find?_add, same]

theorem find?_ofRegistrations_other {name : String} {entry : String × Builtin}
    (other : entry.1 ≠ name) (earlier later : List (String × Builtin)) :
    (ofRegistrations (earlier ++ entry :: later)).find? name =
      (ofRegistrations (earlier ++ later)).find? name := by
  rw [ofRegistrations, ofRegistrations, List.foldl_append, List.foldl_append, List.foldl_cons]
  apply find?_foldl_congr
  rw [find?_add, if_neg other]

end Library

/-- A result that is no complaint about a variable without a value. -/
def Resolved {α : Type} (result : Except RunError α) : Prop :=
  ∀ name position, result ≠ .error ⟨.undefinedVariable name, position⟩

namespace Resolved

theorem ok {α : Type} (value : α) : Resolved (.ok value) :=
  fun _ _ same => by cases same

theorem of_failed {α β : Type} {result : Except RunError α} {error : RunError}
    (resolved : Resolved result) (failed : result = .error error) :
    Resolved (.error error : Except RunError β) := by
  intro name position same
  cases same
  exact resolved name position failed

theorem bind {α β : Type} {result : Except RunError α} {next : α → Except RunError β}
    (first : Resolved result) (rest : ∀ value, result = .ok value → Resolved (next value)) :
    Resolved (result >>= next) := by
  cases result with
  | error error => exact first.of_failed rfl
  | ok value => exact rest value rfl

theorem map {α β : Type} {result : Except RunError α} (first : Resolved result) (f : α → β) :
    Resolved (result.map f) := by
  cases result with
  | error error => exact first.of_failed rfl
  | ok value => exact .ok (f value)

end Resolved

theorem Operand.refuseText_resolved (args : List Operand) : Resolved (refuseText args) := by
  intro name position
  rw [refuseText]
  split <;> exact fun same => by cases same

namespace Store

variable {store : Store} {operand : Operand}

theorem evaluate_resolved (known : store.Knows operand) : Resolved (store.evaluate operand) := by
  rw [evaluate]
  split
  · exact .ok _
  · exact fun _ _ same => by cases same
  · next name isVariable =>
      obtain ⟨value, found⟩ := known name isVariable
      rw [found]
      exact .ok value

theorem cellOf_resolved (known : store.Knows operand) (call : Position) :
    Resolved (store.cellOf operand call) := by
  have addresses := store.cellOf_addresses operand call
  generalize store.cellOf operand call = outcome at addresses ⊢
  cases addresses with
  | unresolved failed => exact (evaluate_resolved known).of_failed failed
  | inside _ _ _ => exact .ok _
  | outside _ _ => exact fun _ _ same => by cases same

end Store

namespace Builtin

theorem inspections_resolved {store : Store} {args : List Operand}
    (known : ∀ operand ∈ args, store.Knows operand) :
    Resolved (args.mapM fun operand =>
      (shownValue store operand).map (inspectionLine operand)) := by
  induction args with
  | nil => exact .ok []
  | cons operand args ih =>
      rw [List.forall_mem_cons] at known
      have shown : Resolved (shownValue store operand) := by
        rw [shownValue]
        split
        · exact .ok _
        · exact (Store.evaluate_resolved known.1).map _
      rw [List.mapM_cons]
      apply Resolved.bind (shown.map _)
      intro line _
      apply Resolved.bind (ih known.2)
      intro lines _
      exact .ok _

/-- The checks of a standard builtin that asks for validation resolve no variable that the
validation has not looked up. -/
theorem effect_resolved {name : String} {builtin : Builtin} (member : (name, builtin) ∈ standard)
    (validates : builtin.validate = true) {store : Store} {args : List Operand}
    (known : ∀ operand ∈ args, store.Knows operand) (call : Position) :
    Resolved (effect store call name args) := by
  cases Standard.of_mem member with
  | input | memget | readFile | writeFile => cases validates
  | showc | shown =>
      match args with
      | [operand] =>
          apply Resolved.bind (Operand.refuseText_resolved _)
          intro _ _
          apply Resolved.bind (Store.evaluate_resolved (known operand (by simp)))
          intro word _
          exact .ok _
      | [] | _ :: _ :: _ => exact fun _ _ same => by cases same
  | memset =>
      match args with
      | [cell, source] =>
          apply Resolved.bind (Operand.refuseText_resolved _)
          intro _ _
          apply Resolved.bind (Store.cellOf_resolved (known cell (by simp)) call)
          intro address _
          apply Resolved.bind (Store.evaluate_resolved (known source (by simp)))
          intro word _
          exact .ok _
      | [] | [_] | _ :: _ :: _ :: _ => exact fun _ _ same => by cases same
  | debug =>
      apply Resolved.bind (inspections_resolved known)
      intro lines _
      exact .ok _

end Builtin

variable {σ : Type} [Host σ]

theorem Effect.perform_resolved (effect : Effect) (store : Store) (host : σ) :
    Resolved (effect.perform.exec store host).1.1 := by
  have performed := effect.perform_performed store host
  generalize effect.perform.exec store host = done at performed ⊢
  cases performed <;> exact fun _ _ same => by cases same

theorem Builtin.handler_resolved {name : String} {builtin : Builtin}
    (member : (name, builtin) ∈ standard) (validates : builtin.validate = true)
    (call : Position) {args : List Operand} {store : Store}
    (known : ∀ operand ∈ args, store.Knows operand) (host : σ) :
    Resolved ((builtin.handler call args).exec store host).1.1 := by
  have checks := effect_resolved member validates known call
  rw [handler_exec member]
  cases found : effect store call name args with
  | error error => exact checks.of_failed found
  | ok effect => exact effect.perform_resolved store host

/-- After any registrations the gate has one verdict on a call. If it opens, the call is the handler
of the latest registration, and if it does not, nothing happens but the error. Registrations of
other names make no difference, and a standard handler that asks for validation complains about no
variable once all are known. -/
theorem Library.perform_gate (registrations : List (String × Builtin)) (name : String)
    (args : List Operand) (call : Position) (store : Store) :
    let perform := (ofRegistrations registrations).perform name args call
    (∃! verdict, Gate registrations store name args call verdict) ∧
    (∀ builtin, Gate registrations store name args call (.ok builtin) →
      perform.on store = (builtin.handler call args).on store) ∧
    (∀ error, Gate registrations store name args call (.error error) →
      perform.on store = pure (.error error, store) ∧
      ∀ host : σ, perform.exec store host = ((.error error, store), host)) ∧
    (∀ earlier entry later, registrations = earlier ++ entry :: later → entry.1 ≠ name →
      perform = (ofRegistrations (earlier ++ later)).perform name args call) ∧
    (∀ entry ∈ Builtin.standard, entry.2.validate = true →
      (∀ operand ∈ args, store.Knows operand) → ∀ host : σ,
        Resolved ((entry.2.handler call args).exec store host).1.1) := by
  intro perform
  obtain ⟨verdict, gate⟩ := exists_gate registrations store name args call
  refine ⟨⟨verdict, gate, fun other => gate.unique⟩, fun builtin opens => ?_,
    fun error closed => ?_, ?_, fun entry member validates known host =>
      Builtin.handler_resolved member validates call known host⟩
  · rw [perform_on, opens.select_eq]
  · have turnedAway : perform.on store = pure (.error error, store) := by
      rw [perform_on, closed.select_eq]
    exact ⟨turnedAway, fun host => by rw [Command.exec, turnedAway]; rfl⟩
  · rintro earlier entry later rfl other
    exact perform_congr (find?_ofRegistrations_other other earlier later) args call

end LineScript
