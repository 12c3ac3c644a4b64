import LineScript.Proofs.Execute
import LineScript.Proofs.Run
import LineScript.World
import Mathlib.Data.List.Find

/-!
More memory changes nothing. Two stores that differ in the size of their memories only, and in the
variable that tells it, are taken through the same statements: as long as the smaller memory is
not exceeded, both runs stand at the same place after every transition and have asked their hosts
for the same.
-/

namespace LineScript

def RunFault.OutOfBounds : RunFault → Prop
  | .addressOutOfBounds _ _ | .rangeOutOfBounds _ _ _ => True
  | _ => False

def Operand.Avoids (operand : Operand) (name : String) : Prop :=
  operand.term ≠ .variable name

/-- No operand is the variable. It may still be assigned to, which nothing then depends on. -/
def Plan.Avoids (plan : Plan) (name : String) : Prop :=
  ∀ statement ∈ plan.program, ∀ operand ∈ statement.operands, operand.Avoids name

namespace Store

/-- The large memory goes on with zeros where the small one ends. -/
structure Enlarged (small large : Store) : Prop where
  size : small.memory.size ≤ large.memory.size
  cells : ∀ address, address < small.memory.size →
    large.memory.cell address = small.memory.cell address
  zeros : ∀ address, small.memory.size ≤ address → address < large.memory.size →
    large.memory.cell address = 0
  values : ∀ name, name ≠ sizeVariable → large.value? name = small.value? name

end Store

/-- Checks on two stores come to the same, unless the smaller memory is exceeded. -/
inductive Agree {α : Type} (Found : α → Prop) : Except RunError α → Except RunError α → Prop
  | found {value : α} (holds : Found value) : Agree Found (.ok value) (.ok value)
  | failed (error : RunError) : Agree Found (.error error) (.error error)
  | exceeded {error : RunError} (bounds : error.fault.OutOfBounds) (large : Except RunError α) :
      Agree Found (.error error) large

namespace Agree

theorem of_eq {α : Type} {small large : Except RunError α} (same : large = small) :
    Agree (fun _ => True) small large := by
  subst same
  cases large with
  | error error => exact .failed error
  | ok value => exact .found trivial

theorem bind {α β : Type} {Found : α → Prop} {Found' : β → Prop}
    {small large : Except RunError α} {next next' : α → Except RunError β}
    (first : Agree Found small large)
    (rest : ∀ value, Found value → Agree Found' (next value) (next' value)) :
    Agree Found' (small >>= next) (large >>= next') := by
  cases first with
  | found holds => exact rest _ holds
  | failed error => exact .failed error
  | exceeded bounds large => exact .exceeded bounds _

end Agree

namespace Store.Enlarged

variable {small large : Store}

theorem new {cells more : Nat} (order : cells ≤ more) :
    (Store.new cells).Enlarged (Store.new more) := by
  refine ⟨order, fun address _ => ?_, fun address _ _ => ?_, fun name other => ?_⟩
  · rw [memory_new, memory_new, Memory.cell_zeros, Memory.cell_zeros]
  · rw [memory_new, Memory.cell_zeros]
  · have differs : ¬ sizeVariable = name := fun same => other same.symm
    simp [Store.new, value?, differs]

theorem evaluate (related : small.Enlarged large) {operand : Operand}
    (avoids : operand.Avoids sizeVariable) : large.evaluate operand = small.evaluate operand := by
  obtain ⟨_ | _ | name, token⟩ := operand
  · rfl
  · rfl
  · have other : name ≠ sizeVariable := fun same => avoids (congrArg Operand.Term.variable same)
    simp only [Store.evaluate, related.values name other]

theorem lacks (related : small.Enlarged large) {operand : Operand}
    (avoids : operand.Avoids sizeVariable) : large.lacks operand = small.lacks operand := by
  obtain ⟨_ | _ | name, token⟩ := operand
  · rfl
  · rfl
  · have other : name ≠ sizeVariable := fun same => avoids (congrArg Operand.Term.variable same)
    simp only [Store.lacks, related.values name other]

theorem cellOf (related : small.Enlarged large) {operand : Operand}
    (avoids : operand.Avoids sizeVariable) (call : Position) :
    Agree (· < small.memory.size) (small.cellOf operand call) (large.cellOf operand call) := by
  rw [Store.cellOf, Store.cellOf, related.evaluate avoids]
  cases small.evaluate operand with
  | error error => exact .failed error
  | ok value =>
      have size := related.size
      by_cases inside : 0 ≤ value.toInt ∧ value.toInt < small.memory.size
      · have inside' : 0 ≤ value.toInt ∧ value.toInt < large.memory.size := by omega
        have address : value.toInt.toNat < small.memory.size := by omega
        simp only [if_pos inside, if_pos inside']
        exact .found address
      · simp only [if_neg inside]
        refine .exceeded ?_ _
        exact trivial

theorem rangeEnd (related : small.Enlarged large) (start : Nat) (length : Int)
    (call : Position) :
    Agree (· ≤ small.memory.size) (small.rangeEnd start length call)
      (large.rangeEnd start length call) := by
  have size := related.size
  rw [Store.rangeEnd, Store.rangeEnd]
  by_cases inside : 0 ≤ length ∧ start + length ≤ small.memory.size
  · have inside' : 0 ≤ length ∧ start + length ≤ large.memory.size := by omega
    have stop : start + length.toNat ≤ small.memory.size := by omega
    rw [if_pos inside, if_pos inside']
    exact .found stop
  · rw [if_neg inside]
    refine .exceeded ?_ _
    exact trivial

theorem checkVariables (related : small.Enlarged large) {args : List Operand}
    (avoid : ∀ operand ∈ args, operand.Avoids sizeVariable) :
    large.checkVariables args = small.checkVariables args := by
  have same : args.find? large.lacks = args.find? small.lacks :=
    List.find?_congr fun operand member => related.lacks (avoid operand member)
  rw [Store.checkVariables, Store.checkVariables, same]

theorem select (related : small.Enlarged large) (library : Library) (name : String)
    {args : List Operand} (avoid : ∀ operand ∈ args, operand.Avoids sizeVariable)
    (call : Position) :
    library.select large name args call = library.select small name args call := by
  simp only [Library.select, related.checkVariables avoid]

theorem assign (related : small.Enlarged large) (name : String) (value : Int64) :
    (small.assign name value).Enlarged (large.assign name value) := by
  refine ⟨related.size, related.cells, related.zeros, fun other differs => ?_⟩
  rw [value?_assign, value?_assign, related.values other differs]

/-- Values put into cells that both memories have leave the further cells as they were. -/
theorem place (related : small.Enlarged large) {start : Nat} {values : List Int64}
    (inside : start + values.length ≤ small.memory.size) :
    (small.place start values).Enlarged (large.place start values) := by
  refine ⟨?_, fun address below => ?_, fun address above below => ?_, related.values⟩
  · rw [memory_place, memory_place, Memory.size_place, Memory.size_place]
    exact related.size
  · rw [memory_place, Memory.size_place] at below
    rw [memory_place, memory_place, Memory.cell_place, Memory.cell_place,
      related.cells address below]
  · rw [memory_place, Memory.size_place] at above below
    -- No value reaches a cell that only the large memory has.
    have beyond : values[address - start]? = none := List.getElem?_eq_none (by omega)
    rw [memory_place, Memory.cell_place, beyond, Option.getD_none, ite_self]
    exact related.zeros address above below

end Store.Enlarged

/-- Cells are changed one by one only where there are that many. -/
def Effect.Within (cells : Nat) : Effect → Prop
  | .poke address _ => address < cells
  | _ => True

namespace Builtin

variable {small large : Store}

theorem shownValue_enlarged (related : small.Enlarged large) {operand : Operand}
    (avoids : operand.Avoids Store.sizeVariable) :
    shownValue large operand = shownValue small operand := by
  simp only [shownValue, related.evaluate avoids]

theorem mapM_shownValue_enlarged (related : small.Enlarged large) (line : Operand → String → String)
    {args : List Operand} (avoid : ∀ operand ∈ args, operand.Avoids Store.sizeVariable) :
    (args.mapM fun operand => (shownValue large operand).map (line operand)) =
      args.mapM fun operand => (shownValue small operand).map (line operand) := by
  induction args with
  | nil => rfl
  | cons operand args ih =>
      rw [List.forall_mem_cons] at avoid
      rw [List.mapM_cons, List.mapM_cons, shownValue_enlarged related avoid.1, ih avoid.2]

theorem effect_enlarged (related : small.Enlarged large) {name : String} {builtin : Builtin}
    (member : (name, builtin) ∈ standard) (call : Position) {args : List Operand}
    (avoid : ∀ operand ∈ args, operand.Avoids Store.sizeVariable) :
    Agree (Effect.Within small.memory.size) (effect small call name args)
      (effect large call name args) := by
  cases Standard.of_mem member with
  | showc | shown =>
      match args with
      | [operand] =>
          apply Agree.bind (.of_eq rfl)
          intro _ _
          apply Agree.bind (.of_eq (related.evaluate (avoid operand List.mem_cons_self)))
          intro value _
          exact .found trivial
      | [] | _ :: _ :: _ => exact .failed _
  | input =>
      match args with
      | [target] =>
          apply Agree.bind (.of_eq rfl)
          intro _ _
          apply Agree.bind (.of_eq rfl)
          intro name _
          exact .found trivial
      | [] | _ :: _ :: _ => exact .failed _
  | memset =>
      match args with
      | [cell, source] =>
          simp only [List.forall_mem_cons] at avoid
          apply Agree.bind (.of_eq rfl)
          intro _ _
          apply Agree.bind (related.cellOf avoid.1 call)
          intro address inside
          apply Agree.bind (.of_eq (related.evaluate avoid.2.1))
          intro value _
          exact .found inside
      | [] | [_] | _ :: _ :: _ :: _ => exact .failed _
  | memget =>
      match args with
      | [cell, target] =>
          simp only [List.forall_mem_cons] at avoid
          apply Agree.bind (.of_eq rfl)
          intro _ _
          apply Agree.bind (related.cellOf avoid.1 call)
          intro address inside
          apply Agree.bind (.of_eq rfl)
          intro name _
          rw [related.cells address inside]
          exact .found trivial
      | [] | [_] | _ :: _ :: _ :: _ => exact .failed _
  | debug =>
      apply Agree.bind (.of_eq (mapM_shownValue_enlarged related inspectionLine avoid))
      intro lines _
      exact .found trivial
  | readFile =>
      match args with
      | [file, cell, length] =>
          simp only [List.forall_mem_cons] at avoid
          apply Agree.bind (.of_eq rfl)
          intro _ _
          apply Agree.bind (.of_eq rfl)
          intro path _
          apply Agree.bind (.of_eq rfl)
          intro name _
          apply Agree.bind (related.cellOf avoid.2.1 call)
          intro start _
          exact .found trivial
      | [] | [_] | [_, _] | _ :: _ :: _ :: _ :: _ => exact .failed _
  | writeFile =>
      match args with
      | [file, cell, length] =>
          simp only [List.forall_mem_cons] at avoid
          apply Agree.bind (.of_eq rfl)
          intro _ _
          apply Agree.bind (.of_eq rfl)
          intro path _
          apply Agree.bind (related.cellOf avoid.2.1 call)
          intro start _
          apply Agree.bind (.of_eq (related.evaluate avoid.2.2.1))
          intro count _
          apply Agree.bind (related.rangeEnd start count.toInt call)
          intro stop inside
          have same : (List.range' start (stop - start)).map large.memory.cell =
              (List.range' start (stop - start)).map small.memory.cell := by
            apply List.map_congr_left
            intro address member
            rw [List.mem_range'_1] at member
            exact related.cells address (by omega)
          rw [same]
          exact .found trivial
      | [] | [_] | [_, _] | _ :: _ :: _ :: _ :: _ => exact .failed _

end Builtin

theorem Statement.effect_enlarged {small large : Store} (related : small.Enlarged large)
    {plan : Plan} {statement : Statement} (calls : statement.CallsStandard plan.library)
    (avoid : ∀ operand ∈ statement.operands, operand.Avoids Store.sizeVariable) :
    Agree (fun found => found.1.Within small.memory.size) (statement.effect plan small)
      (statement.effect plan large) := by
  cases statement with
  | assign target value =>
      have same := related.evaluate (avoid value (List.mem_singleton_self value))
      apply Agree.bind (.of_eq same)
      intro value _
      exact .found trivial
  | compute target op lhs rhs =>
      simp only [operands, List.forall_mem_cons] at avoid
      apply Agree.bind (.of_eq (related.evaluate avoid.1))
      intro left _
      apply Agree.bind (.of_eq (related.evaluate avoid.2.1))
      intro right _
      apply Agree.bind (.of_eq rfl)
      intro value _
      exact .found trivial
  | branch op lhs rhs destination =>
      simp only [operands, List.forall_mem_cons] at avoid
      apply Agree.bind (.of_eq (related.evaluate avoid.1))
      intro left _
      apply Agree.bind (.of_eq (related.evaluate avoid.2.1))
      intro right _
      by_cases holds : op.eval left right
      · rw [if_pos holds]
        apply Agree.bind (.of_eq rfl)
        intro index _
        exact .found trivial
      · rw [if_neg holds]
        exact .found trivial
  | label name => exact .found trivial
  | jump destination =>
      apply Agree.bind (.of_eq rfl)
      intro index _
      exact .found trivial
  | halt => exact .found trivial
  | call name args position =>
      change ∀ operand ∈ args, operand.Avoids Store.sizeVariable at avoid
      rw [effect, effect, related.select plan.library name avoid position]
      cases selected : plan.library.select small name args position with
      | error error => exact .failed error
      | ok builtin =>
          have member := calls builtin (Library.find?_of_select selected)
          apply Agree.bind (.of_eq rfl)
          intro _ _
          apply Agree.bind (Builtin.effect_enlarged related member position avoid)
          intro effect within
          exact .found within

/-- What is carried out on both stores asks the host for the same and leaves stores that are again
related, unless the smaller memory is exceeded. -/
inductive Parallel {σ α : Type} :
    (Except RunError α × Store) × σ → (Except RunError α × Store) × σ → Prop
  | alongside {small large : Store} (related : small.Enlarged large) (result : Except RunError α)
      (host : σ) : Parallel ((result, small), host) ((result, large), host)
  | exceeded {error : RunError} (bounds : error.fault.OutOfBounds) (store : Store) (host : σ)
      (large : (Except RunError α × Store) × σ) : Parallel ((.error error, store), host) large

variable {σ : Type} [Host σ] {small large : Store}

theorem Effect.perform_enlarged (related : small.Enlarged large) {effect : Effect}
    (within : effect.Within small.memory.size) (host : σ) :
    Parallel (effect.perform.exec small host) (effect.perform.exec large host) := by
  cases effect with
  | nothing => exact .alongside related _ _
  | assign target value => exact .alongside (related.assign target value) _ _
  | poke address value =>
      have inside : address + [value].length ≤ small.memory.size := within
      exact .alongside (related.place inside) _ _
  | write bytes call =>
      rw [perform, Command.exec_emit, Command.exec_emit]
      obtain ⟨reason | _, after⟩ := Host.answer (.write bytes) host
      · exact .alongside related _ _
      · exact .alongside related _ _
  | take target call =>
      rw [exec_take, exec_take]
      obtain ⟨reason | _, ready⟩ := Host.answer Request.flush host
      · exact .alongside related _ _
      · dsimp only
        obtain ⟨value | _ | reason, after⟩ := Host.answer Request.readByte ready
        · exact .alongside (related.assign target (byteWord value)) _ _
        · exact .alongside related _ _
        · exact .alongside related _ _
  | load path start length call =>
      rw [exec_load, exec_load]
      obtain ⟨reason | bytes, after⟩ := Host.answer (.readFile path) host
      · exact .alongside related _ _
      · have size := related.size
        by_cases fits : start + bytes.length ≤ small.memory.size
        · have fits' : start + bytes.length ≤ large.memory.size := by omega
          have inside : start + (bytes.map byteWord).length ≤ small.memory.size := by
            rw [List.length_map]
            exact fits
          simp only [if_pos fits, if_pos fits']
          exact .alongside ((related.place inside).assign length _) _ _
        · simp only [if_neg fits]
          refine .exceeded ?_ _ _ _
          exact trivial
  | save path bytes call =>
      rw [perform, Command.exec_saveFile, Command.exec_saveFile]
      obtain ⟨reason | _, after⟩ := Host.answer (.writeFile path bytes) host
      · exact .alongside related _ _
      · exact .alongside related _ _

theorem Statement.execute_enlarged (related : small.Enlarged large) {plan : Plan}
    {statement : Statement} (calls : statement.CallsStandard plan.library)
    (avoid : ∀ operand ∈ statement.operands, operand.Avoids Store.sizeVariable) (host : σ) :
    Parallel ((statement.execute plan).exec small host)
      ((statement.execute plan).exec large host) := by
  rw [execute_exec calls, execute_exec calls]
  have agree := statement.effect_enlarged related calls avoid
  generalize statement.effect plan small = found, statement.effect plan large = found' at agree
  cases agree with
  | failed error => exact .alongside related _ _
  | exceeded bounds large => exact .exceeded bounds _ _ _
  | @found value within =>
      have parallel := Effect.perform_enlarged related within host
      rw [Command.goOn, Command.goOn, conclude, Command.exec_bind, Command.exec_bind]
      generalize value.1.perform.exec small host = done, value.1.perform.exec large host = done'
        at parallel
      cases parallel with
      | alongside related result after =>
          cases result with
          | error error => exact .alongside related _ _
          | ok _ => exact .alongside related _ _
      | exceeded bounds store after large => exact .exceeded bounds _ _ _

namespace Execution

/-- The run has failed for want of memory. -/
def Exceeded (execution : Execution) : Prop :=
  ∃ error, error.fault.OutOfBounds ∧
    (execution.stage = .closing (.error error) ∨ execution.stage = .finished (.error error))

/-- Two runs that stand at the same place, on stores that differ in their memories' sizes only. -/
structure Enlarged (small large : Execution) : Prop where
  stage : large.stage = small.stage
  store : small.store.Enlarged large.store

theorem exceeded_step {plan : Plan} {execution : Execution} (exceeded : execution.Exceeded)
    (host : σ) : (step plan execution host).1.Exceeded := by
  obtain ⟨stage, store⟩ := execution
  obtain ⟨error, bounds, rfl | rfl⟩ := exceeded
  · refine ⟨error, bounds, .inr ?_⟩
    rw [step_closing]
    rfl
  · exact ⟨error, bounds, .inr rfl⟩

theorem step_enlarged {plan : Plan} (calls : plan.CallsStandard)
    (avoids : plan.Avoids Store.sizeVariable) {first second : Execution}
    (related : first.Enlarged second) (host : σ) :
    (step plan first host).1.Exceeded ∨
      ((step plan first host).1.Enlarged (step plan second host).1 ∧
        (step plan second host).2 = (step plan first host).2) := by
  obtain ⟨stage, small⟩ := first
  obtain ⟨stage', large⟩ := second
  obtain ⟨same, related⟩ := related
  change stage' = stage at same
  change small.Enlarged large at related
  subst same
  cases stage' with
  | running pointer =>
      cases present : plan.program[pointer]? with
      | none =>
          rw [step_past_end present, step_past_end present]
          exact .inr ⟨⟨rfl, related⟩, rfl⟩
      | some statement =>
          have member := Array.mem_of_getElem? present
          have parallel := statement.execute_enlarged related (calls statement member)
            (avoids statement member) host
          rw [step_statement present, step_statement present]
          generalize (statement.execute plan).exec small host = done,
            (statement.execute plan).exec large host = done' at parallel
          cases parallel with
          | alongside related result after => exact .inr ⟨⟨rfl, related⟩, rfl⟩
          | @exceeded error bounds store after large =>
              exact .inl ⟨error, bounds, .inl rfl⟩
  | closing outcome =>
      rw [step_closing, step_closing, Command.exec_flush, Command.exec_flush]
      obtain ⟨reason | _, after⟩ := Host.answer Request.flush host
      · exact .inr ⟨⟨rfl, related⟩, rfl⟩
      · exact .inr ⟨⟨rfl, related⟩, rfl⟩
  | finished outcome => exact .inr ⟨⟨rfl, related⟩, rfl⟩

end Execution

/-- As long as a run does not exceed its memory, it is the same with more memory. -/
theorem Plan.run_enlarged {plan : Plan} (calls : plan.CallsStandard)
    (avoids : plan.Avoids Store.sizeVariable) (related : small.Enlarged large) (host : σ)
    (steps : Nat) (within : ¬ (plan.run small host steps).1.Exceeded) :
    (plan.run small host steps).1.Enlarged (plan.run large host steps).1 ∧
      (plan.run large host steps).2 = (plan.run small host steps).2 := by
  induction steps with
  | zero => exact ⟨⟨rfl, related⟩, rfl⟩
  | succ steps ih =>
      rw [run_succ] at within
      -- A run that has exceeded its memory never recovers, so it has not done so before.
      have within' : ¬ (plan.run small host steps).1.Exceeded :=
        fun exceeded => within (Execution.exceeded_step exceeded _)
      obtain ⟨related, same⟩ := ih within'
      rw [run_succ, run_succ, same]
      obtain exceeded | parallel := Execution.step_enlarged calls avoids related
        (plan.run small host steps).2
      · exact absurd exceeded within
      · exact parallel

theorem Plan.run_enlarged_memset :
    let place := Position.start "<input>"
    let plan := Plan.new .standard
      #[.call "memset" [⟨.integer 0, ⟨.integer, "0", 1, place⟩⟩,
        ⟨.integer 7, ⟨.integer, "7", 1, place⟩⟩] place]
    let world := World.quiet [] FileTable.empty
    plan.CallsStandard ∧ plan.Avoids Store.sizeVariable ∧
      ¬ (plan.run (.new 1) world 3).1.Exceeded ∧
      (plan.run (.new 1) world 3).1.Enlarged (plan.run (.new 2) world 3).1 ∧
      (plan.run (.new 2) world 3).2 = (plan.run (.new 1) world 3).2 := by
  intro place plan world
  have calls : plan.CallsStandard := Plan.callsStandard_new _
  have avoids : plan.Avoids Store.sizeVariable := by
    simp [plan, Plan.Avoids, Plan.new, Statement.operands, Operand.Avoids]
  have ends : (plan.run (.new 1) world 3).1.stage = .finished (.ok .pastEnd) := by rfl
  have within : ¬ (plan.run (.new 1) world 3).1.Exceeded := by
    rintro ⟨error, _, stage | stage⟩
    · rw [ends] at stage
      cases stage
    · rw [ends] at stage
      cases stage
  exact ⟨calls, avoids, within,
    Plan.run_enlarged calls avoids (.new (Nat.le_succ 1)) world 3 within⟩

end LineScript
