import LineScript.Interpreter
import LineScript.Proofs.Labels
import LineScript.Proofs.Run
import LineScript.World

/-!
Where control goes. A jump leads to the last definition of its label, the table of labels reports
every definition that repeats an earlier one, and a run goes on with the next statement unless the
one it stands at is a jump, or a branch whose comparison holds.
-/

namespace LineScript

namespace Comparison

/-- What a comparison says of two integers. -/
def Holds : Comparison → Int → Int → Prop
  | .lt, lhs, rhs => lhs < rhs
  | .gt, lhs, rhs => rhs < lhs
  | .le, lhs, rhs => lhs ≤ rhs
  | .ge, lhs, rhs => rhs ≤ lhs
  | .eq, lhs, rhs => lhs = rhs
  | .ne, lhs, rhs => lhs ≠ rhs

theorem eval_eq_true_iff (op : Comparison) (lhs rhs : Int64) :
    op.eval lhs rhs = true ↔ op.Holds lhs.toInt rhs.toInt := by
  cases op with
  | lt | gt => exact decide_eq_true_iff.trans Int64.lt_iff_toInt_lt
  | le | ge => exact decide_eq_true_iff.trans Int64.le_iff_toInt_le
  | eq => exact decide_eq_true_iff.trans Int64.toInt_inj.symm
  | ne => exact decide_eq_true_iff.trans (not_congr Int64.toInt_inj.symm)

end Comparison

/-- A definition of a label that repeats an earlier one, and the nearest such one. -/
structure Program.Shadows (program : Program) (shadowing : Shadowing) : Prop where
  defined : program[shadowing.index]? = some (.label shadowing.label)
  earlier : shadowing.previous < shadowing.index
  hidden : program[shadowing.previous]? = some (.label shadowing.label)
  nearest : ∀ between, shadowing.previous < between → between < shadowing.index →
    program[between]? ≠ some (.label shadowing.label)

/-- The table leads from each label to its last definition, and nowhere from a label without one. -/
structure LabelTable.Resolves (table : LabelTable) (program : Program) : Prop where
  found : ∀ destination index, table.locate destination = .ok index ↔
    program.LastLabel destination.label index
  missing : ∀ destination error, table.locate destination = .error error ↔
    .label destination.label ∉ program ∧
      error = ⟨.undefinedLabel destination.label, destination.position⟩

/-- The list names all repeated definitions of a program, in order. -/
structure Program.Reported (program : Program) (shadowings : List Shadowing) : Prop where
  ordered : shadowings.Pairwise fun first second => first.index < second.index
  complete : ∀ shadowing, shadowing ∈ shadowings ↔ program.Shadows shadowing

namespace LabelTable

theorem ofProgram_resolves (program : Program) : (ofProgram program).Resolves program := by
  refine ⟨locate_eq_ok_iff program, fun destination error => ?_⟩
  rw [← index?_ofProgram_eq_none_iff, locate]
  cases (ofProgram program).index? destination.label with
  | none => simp [eq_comm]
  | some index => simp

/-- What entering a statement reports. -/
def hides (table : LabelTable) (index : Nat) : Statement → List Shadowing
  | .label name => ((table.index? name).map fun previous => ⟨name, index, previous⟩).toList
  | _ => []

theorem shadowings_enter_concat (statements : List Statement) (statement : Statement)
    (table : LabelTable) (shadowings : List Shadowing) (start : Nat) :
    (enter table shadowings start (statements ++ [statement])).2 =
      (enter table shadowings start statements).2 ++
        (enter table shadowings start statements).1.hides (start + statements.length)
          statement := by
  induction statements generalizing table shadowings start with
  | nil =>
      cases statement with
      | label name =>
          simp only [List.nil_append, enter, hides, List.length_nil, Nat.add_zero]
          cases table.index? name with
          | none => simp
          | some previous => simp
      | _ => simp [enter, hides]
  | cons first statements ih =>
      have shifted : start + 1 + statements.length = start + (statements.length + 1) := by omega
      cases first with
      | label name => rw [List.cons_append, enter, enter, ih, List.length_cons, shifted]
      | _ => exact (ih table shadowings (start + 1)).trans (by rw [shifted]; rfl)

theorem mem_hides_iff {table : LabelTable} {index : Nat} {statement : Statement}
    {shadowing : Shadowing} : shadowing ∈ table.hides index statement ↔
      statement = .label shadowing.label ∧ shadowing.index = index ∧
        table.index? shadowing.label = some shadowing.previous := by
  cases statement with
  | label name =>
      simp only [hides, Option.mem_toList, Option.map_eq_some_iff, Statement.label.injEq]
      constructor
      · rintro ⟨previous, found, rfl⟩
        exact ⟨rfl, rfl, found⟩
      · rintro ⟨rfl, rfl, found⟩
        exact ⟨_, found, rfl⟩
  | _ => simp [hides]

end LabelTable

namespace Program

variable {statements : List Statement} {statement : Statement} {shadowing : Shadowing}

theorem Shadows.lt_size {program : Program} (shadows : program.Shadows shadowing) :
    shadowing.index < program.size :=
  (Array.getElem?_eq_some_iff.mp shadows.defined).1

/-- The definition at the end of a program hides the last one before it. -/
theorem shadows_last_iff (last : shadowing.index = statements.length) :
    Shadows (statements ++ [statement]).toArray shadowing ↔
      statement = .label shadowing.label ∧
        LastLabel statements.toArray shadowing.label shadowing.previous := by
  obtain ⟨label, index, previous⟩ := shadowing
  dsimp only at last ⊢
  subst last
  have before {place : Nat} (inside : place < statements.length) :
      (statements ++ [statement])[place]? = statements[place]? :=
    List.getElem?_append_left inside
  constructor
  · rintro ⟨defined, earlier, hidden, nearest⟩
    simp only [List.getElem?_toArray, List.getElem?_concat_length, Option.some.injEq]
      at defined earlier hidden nearest
    refine ⟨defined, by rw [List.getElem?_toArray, ← before earlier, hidden], fun later above => ?_⟩
    rw [List.getElem?_toArray]
    by_cases inside : later < statements.length
    · rw [← before inside]
      exact nearest later above inside
    · rw [List.getElem?_eq_none (Nat.le_of_not_lt inside)]
      exact nofun
  · rintro ⟨rfl, found, final⟩
    have inside : previous < statements.length := LastLabel.lt_size ⟨found, final⟩
    rw [List.getElem?_toArray] at found
    simp only [List.getElem?_toArray] at final
    refine ⟨by simp, inside, ?_, fun between above below => ?_⟩
    · simp only [List.getElem?_toArray, before inside, found]
    · simp only [List.getElem?_toArray, before below]
      exact final between above

/-- A definition before the end of a program hides what it hid without the end. -/
theorem shadows_front_iff (front : shadowing.index < statements.length) :
    Shadows (statements ++ [statement]).toArray shadowing ↔
      Shadows statements.toArray shadowing := by
  have before {place : Nat} (inside : place ≤ shadowing.index) :
      (statements ++ [statement])[place]? = statements[place]? :=
    List.getElem?_append_left (Nat.lt_of_le_of_lt inside front)
  constructor
  · rintro ⟨defined, earlier, hidden, nearest⟩
    simp only [List.getElem?_toArray] at defined hidden nearest
    rw [before (Nat.le_refl _)] at defined
    rw [before (Nat.le_of_lt earlier)] at hidden
    refine ⟨by simpa using defined, earlier, by simpa using hidden, fun between above below => ?_⟩
    rw [List.getElem?_toArray, ← before (Nat.le_of_lt below)]
    exact nearest between above below
  · rintro ⟨defined, earlier, hidden, nearest⟩
    simp only [List.getElem?_toArray] at defined hidden nearest
    rw [← before (Nat.le_refl _)] at defined
    rw [← before (Nat.le_of_lt earlier)] at hidden
    refine ⟨by simpa using defined, earlier, by simpa using hidden, fun between above below => ?_⟩
    rw [List.getElem?_toArray, before (Nat.le_of_lt below)]
    exact nearest between above below

theorem collect_reported (program : Program) :
    program.Reported (LabelTable.collect program).2 := by
  obtain ⟨statements⟩ := program
  -- From the back, because a definition hides what the table holds when it is entered.
  induction statements using List.reverseRecOn with
  | nil =>
      refine ⟨List.Pairwise.nil, fun shadowing => ⟨nofun, fun shadows => ?_⟩⟩
      exact absurd shadows.lt_size (Nat.not_lt_zero _)
  | append_singleton statements statement ih =>
      obtain ⟨ordered, complete⟩ := ih
      have collected : (LabelTable.collect (statements ++ [statement]).toArray).2 =
          (LabelTable.collect statements.toArray).2 ++
            (LabelTable.ofProgram statements.toArray).hides statements.length statement := by
        have entered := LabelTable.shadowings_enter_concat statements statement .empty [] 0
        rw [Nat.zero_add] at entered
        exact entered
      rw [collected]
      refine ⟨List.pairwise_append.mpr ⟨ordered, ?_, fun first early second late => ?_⟩,
        fun shadowing => ?_⟩
      · cases statement with
        | label name =>
            rw [LabelTable.hides]
            cases (LabelTable.ofProgram statements.toArray).index? name with
            | none => exact List.Pairwise.nil
            | some previous => exact List.pairwise_singleton _ _
        | _ => exact List.Pairwise.nil
      · have below := ((complete first).mp early).lt_size
        rw [(LabelTable.mem_hides_iff.mp late).2.1]
        exact below
      · rw [List.mem_append, complete, LabelTable.mem_hides_iff,
          LabelTable.index?_ofProgram_eq_some_iff]
        rcases Nat.lt_trichotomy shadowing.index statements.length with front | last | beyond
        · rw [shadows_front_iff front]
          exact or_iff_left fun hides => absurd hides.2.1 (Nat.ne_of_lt front)
        · rw [shadows_last_iff last]
          constructor
          · rintro (shadows | ⟨defines, _, final⟩)
            · exact absurd last (Nat.ne_of_lt shadows.lt_size)
            · exact ⟨defines, final⟩
          · exact fun ⟨defines, final⟩ => .inr ⟨defines, last, final⟩
        · constructor
          · rintro (shadows | ⟨_, last, _⟩)
            · exact absurd (Nat.lt_trans beyond shadows.lt_size) (Nat.lt_irrefl _)
            · exact absurd last (Nat.ne_of_gt beyond)
          · intro shadows
            have inside := shadows.lt_size
            rw [List.size_toArray, List.length_append, List.length_singleton] at inside
            exact absurd beyond (Nat.not_lt_of_le (Nat.le_of_lt_succ inside))

/-- The index that a statement at `pointer` leads to, when it neither fails nor ends the run. -/
inductive Leads (program : Program) (store : Store) (pointer : Nat) : Statement → Nat → Prop
  | next {statement : Statement} (straight : statement.destination? = none)
      (goes : statement ≠ .halt) : Leads program store pointer statement (pointer + 1)
  | passed {op : Comparison} {lhs rhs : Operand} {destination : Destination} {left right : Int64}
      (first : store.evaluate lhs = .ok left) (second : store.evaluate rhs = .ok right)
      (fails : ¬ op.Holds left.toInt right.toInt) :
      Leads program store pointer (.branch op lhs rhs destination) (pointer + 1)
  | taken {op : Comparison} {lhs rhs : Operand} {destination : Destination} {left right : Int64}
      {index : Nat} (first : store.evaluate lhs = .ok left)
      (second : store.evaluate rhs = .ok right) (holds : op.Holds left.toInt right.toInt)
      (last : program.LastLabel destination.label index) :
      Leads program store pointer (.branch op lhs rhs destination) index
  | jump {destination : Destination} {index : Nat}
      (last : program.LastLabel destination.label index) :
      Leads program store pointer (.jump destination) index

theorem Leads.le_size {program : Program} {store : Store} {pointer next : Nat}
    (inside : pointer < program.size) (leads : program.Leads store pointer statement next) :
    next ≤ program.size := by
  cases leads with
  | next _ _ | passed _ _ _ => exact inside
  | taken _ _ _ last | jump last => exact Nat.le_of_lt last.lt_size

end Program

namespace Statement

variable {σ : Type} [Host σ] {library : Library} {program : Program} {store : Store} {host : σ}

/-- A branch whose comparison fails does not look at its destination. -/
theorem execute_branch_of_fails (plan : Plan) {op : Comparison} {lhs rhs : Operand}
    (destination : Destination) {left right : Int64} (first : store.evaluate lhs = .ok left)
    (second : store.evaluate rhs = .ok right) (fails : ¬ op.Holds left.toInt right.toInt)
    (host : σ) :
    ((Statement.branch op lhs rhs destination).execute plan).exec store host =
      ((.ok .proceed, store), host) := by
  rw [← Comparison.eval_eq_true_iff] at fails
  simp only [execute, Command.evaluate, Command.exec_bind, Command.exec_check, first, second]
  rw [if_neg fails]
  rfl

/-- A statement that succeeds and does not end the run leads somewhere. -/
theorem leads_of_execute {statement : Statement} (pointer : Nat) {succession : Succession}
    (succeeds : ((statement.execute (.new library program)).exec store host).1.1 =
      .ok succession) (goes : statement ≠ .halt) :
    ∃ next, Execution.follow pointer (.ok succession) = .running next ∧
      program.Leads store pointer statement next := by
  obtain ⟨effect, comes⟩ | ⟨⟨name, args, call, rfl⟩, rfl⟩ := comesTo_or_call succeeds
  · cases comes with
    | taken first second holds located =>
        refine ⟨_, rfl, .taken first second ((Comparison.eval_eq_true_iff _ _ _).mp holds) ?_⟩
        exact (LabelTable.locate_eq_ok_iff program _ _).mp located
    | passed first second fails =>
        refine ⟨_, rfl, .passed first second ?_⟩
        rw [← Comparison.eval_eq_true_iff, fails]
        exact Bool.false_ne_true
    | jump located =>
        exact ⟨_, rfl, .jump ((LabelTable.locate_eq_ok_iff program _ _).mp located)⟩
    | halt => exact absurd rfl goes
    | _ => exact ⟨_, rfl, .next rfl goes⟩
  · exact ⟨_, rfl, .next rfl goes⟩

end Statement

namespace Execution

variable {σ : Type} [Host σ]

/-- Where a run is after the statement at `pointer`, which had this result on this store. -/
structure Directed (program : Program) (pointer : Nat) (statement : Statement) (store : Store)
    (result : Except RunError Succession) (after : Stage) : Prop where
  failed : ∀ error, result = .error error → after = .closing (.error error)
  halted : statement = .halt → after = .closing (.ok .halted)
  went : ∀ succession, result = .ok succession → statement ≠ .halt →
    ∃ next, after = .running next ∧ program.Leads store pointer statement next
  untested : ∀ op lhs rhs destination left right, statement = .branch op lhs rhs destination →
    store.evaluate lhs = .ok left → store.evaluate rhs = .ok right →
    ¬ op.Holds left.toInt right.toInt → result = .ok .proceed

theorem directed_follow (library : Library) (program : Program) (pointer : Nat)
    (statement : Statement) (store : Store) (host : σ) :
    let result := ((statement.execute (.new library program)).exec store host).1.1
    Directed program pointer statement store result (follow pointer result) := by
  intro result
  refine ⟨fun error failed => ?_, ?_, fun succession succeeds goes => ?_, ?_⟩
  · rw [failed]
    rfl
  · rintro rfl
    rfl
  · rw [succeeds]
    exact Statement.leads_of_execute pointer succeeds goes
  · rintro op lhs rhs destination left right rfl first second fails
    have passed := Statement.execute_branch_of_fails (.new library program) destination first second
      fails host
    exact congrArg (fun done => done.1.1) passed

end Execution

namespace Plan

variable {σ : Type} [Host σ] {library : Library} {program : Program} {store : Store} {host : σ}

/-- A run that goes on has just left a statement for where that statement leads. -/
theorem leads_of_running {steps next : Nat}
    (runs : ((new library program).run store host (steps + 1)).1.stage = .running next) :
    ∃ pointer statement left before,
      (new library program).run store host steps = (⟨.running pointer, left⟩, before) ∧
      program[pointer]? = some statement ∧ program.Leads left pointer statement next := by
  rw [run_succ] at runs
  rcases reached : (new library program).run store host steps with ⟨⟨stage, left⟩, before⟩
  rw [reached] at runs
  cases stage with
  | running pointer =>
      cases present : (new library program).program[pointer]? with
      | none =>
          rw [Execution.step_past_end present] at runs
          cases runs
      | some statement =>
          refine ⟨pointer, statement, left, before, rfl, present, ?_⟩
          rw [Execution.step_statement present] at runs
          have directed := Execution.directed_follow library program pointer statement left before
          dsimp only at runs directed
          cases result : ((statement.execute (new library program)).exec left before).1.1 with
          | error error =>
              rw [result] at runs
              cases runs
          | ok succession =>
              by_cases halts : statement = .halt
              · have closes := directed.halted halts
                rw [runs] at closes
                cases closes
              · obtain ⟨index, goes, leads⟩ := directed.went succession result halts
                rw [runs] at goes
                cases goes
                exact leads
  | closing ending =>
      obtain ⟨last, closed⟩ := Execution.step_closing_host (new library program) ending left before
      rw [closed] at runs
      cases runs
  | finished outcome => cases runs

/-- A run stands at a statement of its program or just behind the last one. -/
theorem pointer_le_size_run {steps pointer : Nat}
    (runs : ((new library program).run store host steps).1.stage = .running pointer) :
    pointer ≤ program.size := by
  cases steps with
  | zero =>
      cases runs
      exact Nat.zero_le _
  | succ steps =>
      obtain ⟨earlier, statement, left, before, _, present, leads⟩ := leads_of_running runs
      exact leads.le_size (Array.getElem?_eq_some_iff.mp present).1

end Plan

/-- Jumps lead to the last definitions of their labels and repeated definitions are reported; a run
never passes the end of its program, and leaves each statement for where that statement leads. -/
theorem Program.run_directed {σ : Type} [Host σ] (library : Library) (program : Program)
    (store : Store) (host : σ) (steps : Nat) :
    (LabelTable.ofProgram program).Resolves program ∧
    program.Reported (LabelTable.collect program).2 ∧
    (∀ file options, Notice.warnings (Launch.ofProgram program file options).notices =
      (LabelTable.collect program).2.map fun shadowing =>
        s!"label '{shadowing.label}' at statement " ++ Numeral.ofNat shadowing.index ++
          " shadows the one at statement " ++ Numeral.ofNat shadowing.previous) ∧
    let plan := Plan.new library program
    ∀ pointer left before, plan.run store host steps = (⟨.running pointer, left⟩, before) →
      pointer ≤ program.size ∧
      ∀ statement, program[pointer]? = some statement →
        Execution.Directed program pointer statement left
          ((statement.execute plan).exec left before).1.1
          (plan.run store host (steps + 1)).1.stage := by
  refine ⟨LabelTable.ofProgram_resolves program, program.collect_reported, ?_, ?_⟩
  · intro file options
    simp only [Launch.ofProgram, Notice.warnings]
    rw [List.filter_cons_of_neg (by simp [Notice.programRead])]
    rw [List.filter_eq_self.mpr (by simp [Notice.shadowedLabel])]
    rw [List.map_map]
    rfl
  · intro plan pointer left before reached
    refine ⟨Plan.pointer_le_size_run (by rw [reached]), ?_⟩
    intro statement present
    rw [Plan.run_succ, reached, Execution.step_statement present]
    exact Execution.directed_follow library program pointer statement left before

/-- A label that is defined twice, and a branch that does not hold to one that is not defined. -/
theorem Program.run_directed_shadowed :
    let place := Position.start "<jumps>"
    let one : Operand := ⟨.integer 1, ⟨.integer, "1", 1, place⟩⟩
    let two : Operand := ⟨.integer 2, ⟨.integer, "2", 1, place⟩⟩
    let test : Statement := .branch .lt two one ⟨"nowhere", place⟩
    let program : Program := #[.label "on", test, .jump ⟨"on", place⟩, .label "on"]
    let plan := Plan.new .standard program
    let world := World.quiet [] FileTable.empty
    program.LastLabel "on" 3 ∧
    (LabelTable.ofProgram program).locate ⟨"on", place⟩ = .ok 3 ∧
    plan.run (.new 0) world 1 = (⟨.running 1, .new 0⟩, world) ∧
    ((test.execute plan).exec (.new 0) world).1.1 = .ok .proceed := by
  intro place one two test program plan world
  obtain ⟨resolves, _, _, runs⟩ := Program.run_directed .standard program (.new 0) world 1
  have last : program.LastLabel "on" 3 := by
    refine ⟨rfl, fun later beyond => ?_⟩
    rw [Array.getElem?_eq_none (show program.size ≤ later from beyond)]
    exact nofun
  have reached : plan.run (.new 0) world 1 = (⟨.running 1, .new 0⟩, world) := by rfl
  have fails : ¬ Comparison.lt.Holds (2 : Int64).toInt (1 : Int64).toInt :=
    show ¬ (2 : Int64).toInt < (1 : Int64).toInt by decide
  obtain ⟨_, directed⟩ := runs 1 (.new 0) world reached
  exact ⟨last, (resolves.found ⟨"on", place⟩ 3).mpr last, reached,
    (directed test rfl).untested .lt two one ⟨"nowhere", place⟩ 2 1 rfl rfl rfl fails⟩

end LineScript
