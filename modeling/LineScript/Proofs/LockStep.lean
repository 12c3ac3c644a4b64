import LineScript.Interpreter
import LineScript.Proofs.Execute
import LineScript.Proofs.Resemblance
import LineScript.Proofs.Run

/-!
Programs that say the same run in lock step. Places and token lengths reach nothing but the places
of errors, so two such programs ask the host for the same, keep the same store, and end alike.
-/

namespace LineScript

/-- Results that correspond: related values, or the same fault at related places. -/
inductive Matched (R : Position → Position → Prop) {α β : Type} (S : α → β → Prop) :
    Except RunError α → Except RunError β → Prop
  | ok {value : α} {other : β} : S value other → Matched R S (.ok value) (.ok other)
  | error (fault : RunFault) {position position' : Position} : R position position' →
      Matched R S (.error ⟨fault, position⟩) (.error ⟨fault, position'⟩)

variable {R : Position → Position → Prop}

theorem Matched.bind {α α' β β' : Type} {S : α → α' → Prop} {T : β → β' → Prop}
    {result : Except RunError α} {result' : Except RunError α'} {next : α → Except RunError β}
    {next' : α' → Except RunError β'} (first : Matched R S result result')
    (rest : ∀ value other, S value other → Matched R T (next value) (next' other)) :
    Matched R T (result >>= next) (result' >>= next') := by
  cases first with
  | ok related => exact rest _ _ related
  | error fault related => exact .error fault related

namespace Operand

variable {operand other : Operand} {args others : List Operand}

theorem Alike.isText_eq (alike : Operand.Alike R operand other) :
    other.isText = operand.isText := by
  rw [isText, isText, alike.term]

theorem Alike.asVariable (alike : Operand.Alike R operand other) :
    Matched R Eq operand.asVariable other.asVariable := by
  rw [Operand.asVariable, Operand.asVariable, alike.term]
  cases operand.term with
  | «variable» name => exact .ok rfl
  | integer _ | text _ => exact .error _ alike.position

theorem Alike.asText (alike : Operand.Alike R operand other) :
    Matched R Eq operand.asText other.asText := by
  rw [Operand.asText, Operand.asText, alike.term]
  cases operand.term with
  | text content => exact .ok rfl
  | integer _ | «variable» _ => exact .error _ alike.position

/-- The first operands of some kind correspond, if there are any. -/
theorem find?_alike {found : Operand → Bool}
    (respects : ∀ operand other, Operand.Alike R operand other → found other = found operand)
    (alike : List.Forall₂ (Operand.Alike R) args others) :
    Option.Rel (Operand.Alike R) (args.find? found) (others.find? found) := by
  induction alike with
  | nil => exact .none
  | @cons operand other args others same _ ih =>
      rw [List.find?_cons, List.find?_cons, respects operand other same]
      cases found operand with
      | true => exact .some same
      | false => exact ih

theorem refuseText_alike (alike : List.Forall₂ (Operand.Alike R) args others) :
    Matched R Eq (refuseText args) (refuseText others) := by
  have first := find?_alike (fun _ _ same => same.isText_eq) alike
  rw [refuseText, refuseText]
  generalize args.find? isText = found, others.find? isText = found' at first
  cases first with
  | none => exact .ok rfl
  | some same => exact .error _ same.position

end Operand

namespace Store

variable {operand other : Operand} {args others : List Operand} {call call' : Position}

theorem evaluate_alike (store : Store) (alike : Operand.Alike R operand other) :
    Matched R Eq (store.evaluate operand) (store.evaluate other) := by
  rw [evaluate, evaluate, alike.term]
  cases operand.term with
  | integer value => exact .ok rfl
  | text content => exact .error _ alike.position
  | «variable» name =>
      cases found : store.value? name with
      | none => simpa only [found] using .error _ alike.position
      | some value => simpa only [found] using .ok rfl

theorem cellOf_alike (store : Store) (alike : Operand.Alike R operand other)
    (place : R call call') :
    Matched R Eq (store.cellOf operand call) (store.cellOf other call') := by
  have value := store.evaluate_alike alike
  rw [cellOf, cellOf]
  generalize store.evaluate operand = found, store.evaluate other = found' at value
  cases value with
  | error fault related => exact .error fault related
  | @ok value _ same =>
      subst same
      by_cases inside : 0 ≤ value.toInt ∧ value.toInt < store.memory.size
      · simpa only [if_pos inside] using .ok rfl
      · simpa only [if_neg inside] using .error _ place

theorem rangeEnd_alike (store : Store) (start : Nat) (length : Int) (place : R call call') :
    Matched R Eq (store.rangeEnd start length call) (store.rangeEnd start length call') := by
  rw [rangeEnd, rangeEnd]
  split
  · exact .ok rfl
  · exact .error _ place

theorem lacks_alike (store : Store) (alike : Operand.Alike R operand other) :
    store.lacks other = store.lacks operand := by
  rw [lacks, lacks, alike.term]

theorem checkVariables_alike (store : Store)
    (alike : List.Forall₂ (Operand.Alike R) args others) :
    Matched R Eq (store.checkVariables args) (store.checkVariables others) := by
  have first := Operand.find?_alike (fun _ _ same => store.lacks_alike same) alike
  rw [checkVariables, checkVariables]
  generalize args.find? store.lacks = found, others.find? store.lacks = found' at first
  cases first with
  | none => exact .ok rfl
  | @some operand other same =>
      obtain ⟨term, token⟩ := operand
      obtain ⟨term', token'⟩ := other
      obtain rfl : term' = term := same.term
      cases term' with
      | «variable» name => exact .error _ same.position
      | integer _ | text _ => exact .ok rfl

end Store

theorem Library.select_alike (library : Library) (store : Store) (name : String)
    {args others : List Operand} {call call' : Position}
    (alike : List.Forall₂ (Operand.Alike R) args others) (place : R call call') :
    Matched R Eq (library.select store name args call)
      (library.select store name others call') := by
  rw [select, select, alike.length_eq]
  cases library.find? name with
  | none => exact .error _ place
  | some builtin =>
      dsimp only
      cases builtin.arity.missed? others.length with
      | some expected => exact .error _ place
      | none =>
          dsimp only
          split
          · have checked := store.checkVariables_alike alike
            generalize store.checkVariables args = result,
              store.checkVariables others = result' at checked
            cases checked with
            | ok _ => exact .ok rfl
            | error fault related => exact .error fault related
          · exact .ok rfl

theorem LabelTable.locate_alike (table : LabelTable) {destination other : Destination}
    (alike : Destination.Alike R destination other) :
    Matched R Eq (table.locate destination) (table.locate other) := by
  rw [locate, locate, alike.label]
  cases table.index? destination.label with
  | some index => exact .ok rfl
  | none => exact .error _ alike.position

theorem Arithmetic.evalAt_alike (op : Arithmetic) (lhs rhs : Int64) {position position' : Position}
    (place : R position position') :
    Matched R Eq (op.evalAt lhs rhs position) (op.evalAt lhs rhs position') := by
  rw [evalAt, evalAt]
  cases op.eval lhs rhs with
  | ok value => exact .ok rfl
  | error fault =>
      cases fault with
      | divisionByZero => exact .error _ place
      | invalidExponent exponent => exact .error _ place

/-- The same effect, at a related place. -/
inductive Effect.Alike (R : Position → Position → Prop) : Effect → Effect → Prop
  | nothing : Alike R .nothing .nothing
  | assign (target : String) (value : Int64) : Alike R (.assign target value) (.assign target value)
  | poke (address : Nat) (value : Int64) : Alike R (.poke address value) (.poke address value)
  | write (bytes : Bytes) {call call' : Position} : R call call' →
      Alike R (.write bytes call) (.write bytes call')
  | take (target : String) {call call' : Position} : R call call' →
      Alike R (.take target call) (.take target call')
  | load (path : String) (start : Nat) (length : String) {call call' : Position} : R call call' →
      Alike R (.load path start length call) (.load path start length call')
  | save (path : String) (bytes : Bytes) {call call' : Position} : R call call' →
      Alike R (.save path bytes call) (.save path bytes call')

namespace Builtin

variable {args others : List Operand} {call call' : Position}

/-- A line of `debug` shows the text of the operand's token, but nothing of its place. -/
theorem inspection_alike (store : Store) {operand other : Operand}
    (alike : Operand.Alike R operand other) :
    Matched R Eq ((shownValue store operand).map (inspectionLine operand))
      ((shownValue store other).map (inspectionLine other)) := by
  have value := store.evaluate_alike alike
  have line : inspectionLine other = inspectionLine operand := by
    funext shown
    rw [inspectionLine, inspectionLine, alike.text, Operand.typeName, Operand.typeName, alike.term]
  rw [line, shownValue, shownValue, alike.term]
  generalize store.evaluate operand = found, store.evaluate other = found' at value
  cases operand.term with
  | text content => exact .ok rfl
  | integer _ | «variable» _ =>
      cases value with
      | ok same =>
          subst same
          exact .ok rfl
      | error fault place => exact .error fault place

theorem inspections_alike (store : Store) (alike : List.Forall₂ (Operand.Alike R) args others) :
    Matched R Eq
      (args.mapM fun operand => (shownValue store operand).map (inspectionLine operand))
      (others.mapM fun operand => (shownValue store operand).map (inspectionLine operand)) := by
  induction alike with
  | nil => exact .ok rfl
  | cons same _ ih =>
      rw [List.mapM_cons, List.mapM_cons]
      apply Matched.bind (inspection_alike store same)
      rintro line _ rfl
      apply Matched.bind ih
      rintro lines _ rfl
      exact .ok rfl

theorem effect_alike {name : String} {builtin : Builtin} (member : (name, builtin) ∈ standard)
    (store : Store) (alike : List.Forall₂ (Operand.Alike R) args others) (place : R call call') :
    Matched R (Effect.Alike R) (effect store call name args) (effect store call' name others) := by
  cases Standard.of_mem member with
  | showc | shown =>
      obtain _ | ⟨operand, _ | _⟩ := alike
      · exact .error _ place
      · apply Matched.bind (Operand.refuseText_alike (.cons operand .nil))
        intro _ _ _
        apply Matched.bind (store.evaluate_alike operand)
        rintro value _ rfl
        exact .ok (.write _ place)
      · exact .error _ place
  | input =>
      obtain _ | ⟨target, _ | _⟩ := alike
      · exact .error _ place
      · apply Matched.bind (Operand.refuseText_alike (.cons target .nil))
        intro _ _ _
        apply Matched.bind target.asVariable
        rintro name _ rfl
        exact .ok (.take name place)
      · exact .error _ place
  | memset =>
      obtain _ | ⟨cell, _ | ⟨source, _ | _⟩⟩ := alike
      · exact .error _ place
      · exact .error _ place
      · apply Matched.bind (Operand.refuseText_alike (.cons cell (.cons source .nil)))
        intro _ _ _
        apply Matched.bind (store.cellOf_alike cell place)
        rintro address _ rfl
        apply Matched.bind (store.evaluate_alike source)
        rintro value _ rfl
        exact .ok (.poke address value)
      · exact .error _ place
  | memget =>
      obtain _ | ⟨cell, _ | ⟨target, _ | _⟩⟩ := alike
      · exact .error _ place
      · exact .error _ place
      · apply Matched.bind (Operand.refuseText_alike (.cons cell (.cons target .nil)))
        intro _ _ _
        apply Matched.bind (store.cellOf_alike cell place)
        rintro address _ rfl
        apply Matched.bind target.asVariable
        rintro name _ rfl
        exact .ok (.assign name _)
      · exact .error _ place
  | debug =>
      apply Matched.bind (inspections_alike store alike)
      rintro lines _ rfl
      exact .ok (.write _ place)
  | readFile =>
      obtain _ | ⟨file, _ | ⟨cell, _ | ⟨length, _ | _⟩⟩⟩ := alike
      · exact .error _ place
      · exact .error _ place
      · exact .error _ place
      · apply Matched.bind (Operand.refuseText_alike (.cons cell (.cons length .nil)))
        intro _ _ _
        apply Matched.bind file.asText
        rintro path _ rfl
        apply Matched.bind length.asVariable
        rintro name _ rfl
        apply Matched.bind (store.cellOf_alike cell place)
        rintro start _ rfl
        exact .ok (.load path start name place)
      · exact .error _ place
  | writeFile =>
      obtain _ | ⟨file, _ | ⟨cell, _ | ⟨length, _ | _⟩⟩⟩ := alike
      · exact .error _ place
      · exact .error _ place
      · exact .error _ place
      · apply Matched.bind (Operand.refuseText_alike (.cons cell (.cons length .nil)))
        intro _ _ _
        apply Matched.bind file.asText
        rintro path _ rfl
        apply Matched.bind (store.cellOf_alike cell place)
        rintro start _ rfl
        apply Matched.bind (store.evaluate_alike length)
        rintro count _ rfl
        apply Matched.bind (store.rangeEnd_alike start count.toInt place)
        rintro stop _ rfl
        exact .ok (.save path _ place)
      · exact .error _ place

end Builtin

/-- Plans that say the same. -/
structure Plan.Alike (R : Position → Position → Prop) (plan other : Plan) : Prop where
  program : Program.Alike R plan.program other.program
  labels : other.labels = plan.labels
  library : other.library = plan.library
  last : R plan.program.lastPosition other.program.lastPosition

/-- What the checks of a statement find: the same effect and the same continuation. -/
def Statement.SameEffect (R : Position → Position → Prop) (found other : Effect × Succession) :
    Prop :=
  Effect.Alike R found.1 other.1 ∧ other.2 = found.2

theorem Statement.effect_alike {plan other : Plan} (labels : other.labels = plan.labels)
    (library : other.library = plan.library) {statement statement' : Statement}
    (alike : Statement.Alike R statement statement')
    (calls : statement.CallsStandard plan.library) (store : Store) :
    Matched R (SameEffect R) (statement.effect plan store) (statement'.effect other store) := by
  cases alike with
  | @assign target value value' same =>
      apply Matched.bind (store.evaluate_alike same)
      rintro value _ rfl
      exact .ok ⟨.assign target value, rfl⟩
  | @compute target op lhs rhs lhs' rhs' left right =>
      apply Matched.bind (store.evaluate_alike left)
      rintro left _ rfl
      apply Matched.bind (store.evaluate_alike right)
      rintro right' _ rfl
      apply Matched.bind (op.evalAt_alike left right' right.position)
      rintro value _ rfl
      exact .ok ⟨.assign target value, rfl⟩
  | @branch op lhs rhs lhs' rhs' destination destination' left right goal =>
      apply Matched.bind (store.evaluate_alike left)
      rintro left _ rfl
      apply Matched.bind (store.evaluate_alike right)
      rintro right _ rfl
      by_cases holds : op.eval left right
      · rw [if_pos holds, if_pos holds, labels]
        apply Matched.bind (plan.labels.locate_alike goal)
        rintro index _ rfl
        exact .ok ⟨.nothing, rfl⟩
      · rw [if_neg holds, if_neg holds]
        exact .ok ⟨.nothing, rfl⟩
  | label name => exact .ok ⟨.nothing, rfl⟩
  | @jump destination destination' goal =>
      rw [effect, effect, labels]
      apply Matched.bind (plan.labels.locate_alike goal)
      rintro index _ rfl
      exact .ok ⟨.nothing, rfl⟩
  | halt => exact .ok ⟨.nothing, rfl⟩
  | @call name args args' position position' same place =>
      have selected := plan.library.select_alike store name same place
      have standard (builtin : Builtin)
          (found : plan.library.select store name args position = .ok builtin) :
          (name, builtin) ∈ Builtin.standard := calls builtin (Library.find?_of_select found)
      rw [effect, effect, library]
      generalize plan.library.select store name args position = found,
        plan.library.select store name args' position' = found' at selected standard ⊢
      cases selected with
      | error fault related => exact .error fault related
      | ok _ =>
          apply Matched.bind (Builtin.effect_alike (standard _ rfl) store same place)
          intro effect effect' alike
          exact .ok ⟨alike, rfl⟩

/-- What is carried out comes to corresponding results and leaves the same store and host. -/
inductive Together (R : Position → Position → Prop) {σ α : Type} :
    (Except RunError α × Store) × σ → (Except RunError α × Store) × σ → Prop
  | intro {result result' : Except RunError α} (matched : Matched R Eq result result')
      (store : Store) (host : σ) : Together R ((result, store), host) ((result', store), host)

variable {σ : Type} [Host σ]

theorem Effect.perform_alike {effect other : Effect} (alike : Effect.Alike R effect other)
    (store : Store) (host : σ) :
    Together R (effect.perform.exec store host) (other.perform.exec store host) := by
  cases alike with
  | nothing | assign _ _ | poke _ _ => exact .intro (.ok rfl) _ _
  | write bytes place =>
      rw [perform, perform, Command.exec_emit, Command.exec_emit]
      obtain ⟨reason | _, after⟩ := Host.answer (.write bytes) host
      · exact .intro (.error _ place) _ _
      · exact .intro (.ok rfl) _ _
  | take target place =>
      rw [exec_take, exec_take]
      obtain ⟨reason | _, ready⟩ := Host.answer Request.flush host
      · exact .intro (.error _ place) _ _
      · dsimp only
        obtain ⟨value | _ | reason, after⟩ := Host.answer Request.readByte ready
        · exact .intro (.ok rfl) _ _
        · exact .intro (.error _ place) _ _
        · exact .intro (.error _ place) _ _
  | load path start length place =>
      rw [exec_load, exec_load]
      obtain ⟨reason | bytes, after⟩ := Host.answer (.readFile path) host
      · exact .intro (.error _ place) _ _
      · dsimp only
        split
        · exact .intro (.ok rfl) _ _
        · exact .intro (.error _ place) _ _
  | save path bytes place =>
      rw [perform, perform, Command.exec_saveFile, Command.exec_saveFile]
      obtain ⟨reason | _, after⟩ := Host.answer (.writeFile path bytes) host
      · exact .intro (.error _ place) _ _
      · exact .intro (.ok rfl) _ _

theorem Statement.execute_alike {plan other : Plan} (labels : other.labels = plan.labels)
    (library : other.library = plan.library) {statement statement' : Statement}
    (alike : Statement.Alike R statement statement')
    (calls : statement.CallsStandard plan.library) (calls' : statement'.CallsStandard other.library)
    (store : Store) (host : σ) :
    Together R ((statement.execute plan).exec store host)
      ((statement'.execute other).exec store host) := by
  rw [execute_exec calls, execute_exec calls']
  have effects := Statement.effect_alike labels library alike calls store
  generalize statement.effect plan store = found, statement'.effect other store = found' at effects
  cases effects with
  | error fault place => exact .intro (.error fault place) _ _
  | @ok value value' same =>
      obtain ⟨effect, succession⟩ := value
      obtain ⟨effect', succession'⟩ := value'
      obtain ⟨alike, rfl⟩ := same
      have performed := Effect.perform_alike alike store host
      rw [Command.goOn, Command.goOn, conclude, conclude, Command.exec_bind, Command.exec_bind]
      generalize effect.perform.exec store host = done, effect'.perform.exec store host = done'
        at performed
      cases performed with
      | intro matched store host =>
          cases matched with
          | error fault place => exact .intro (.error fault place) _ _
          | ok _ => exact .intro (.ok rfl) _ _

theorem Program.Alike.getElem? {program other : Program} (alike : Program.Alike R program other)
    (index : Nat) : Option.Rel (Statement.Alike R) program[index]? other[index]? := by
  rw [← Array.getElem?_toList, ← Array.getElem?_toList]
  rw [Program.Alike] at alike
  generalize program.toList = statements, other.toList = others at alike
  induction alike generalizing index with
  | nil => exact .none
  | cons same _ ih =>
      cases index with
      | zero => exact .some same
      | succ index => exact ih index

inductive Stage.Alike (R : Position → Position → Prop) : Stage → Stage → Prop
  | running (pointer : Nat) : Alike R (.running pointer) (.running pointer)
  | closing {outcome outcome' : Outcome} : Matched R Eq outcome outcome' →
      Alike R (.closing outcome) (.closing outcome')
  | finished {outcome outcome' : Outcome} : Matched R Eq outcome outcome' →
      Alike R (.finished outcome) (.finished outcome')

/-- Two runs that stand at the same statement with the same store. -/
structure Execution.Alike (R : Position → Position → Prop) (execution other : Execution) :
    Prop where
  stage : Stage.Alike R execution.stage other.stage
  store : other.store = execution.store

namespace Execution

theorem follow_alike (pointer : Nat) {result result' : Except RunError Succession}
    (matched : Matched R Eq result result') :
    Stage.Alike R (follow pointer result) (follow pointer result') := by
  cases matched with
  | error fault place => exact .closing (.error fault place)
  | @ok succession _ same =>
      subst same
      cases succession with
      | proceed => exact .running (pointer + 1)
      | jump index => exact .running index
      | stop => exact .closing (.ok rfl)

theorem conclude_alike {outcome outcome' : Outcome} {flushed flushed' : Except RunError Unit}
    (outcomes : Matched R Eq outcome outcome') (flushes : Matched R Eq flushed flushed') :
    Matched R Eq (conclude outcome flushed) (conclude outcome' flushed') := by
  cases outcomes with
  | error fault place => exact .error fault place
  | ok same =>
      subst same
      cases flushes with
      | error fault place => exact .error fault place
      | ok _ => exact .ok rfl

theorem flush_alike {call call' : Position} (place : R call call') (store : Store) (host : σ) :
    Together R ((Command.flush call).exec store host) ((Command.flush call').exec store host) := by
  rw [Command.exec_flush, Command.exec_flush]
  obtain ⟨reason | _, after⟩ := Host.answer Request.flush host
  · exact .intro (.error _ place) _ _
  · exact .intro (.ok rfl) _ _

theorem step_lockStep {plan other : Plan} (plans : plan.Alike R other) (calls : plan.CallsStandard)
    (calls' : other.CallsStandard) {execution execution' : Execution}
    (alike : execution.Alike R execution') (host : σ) :
    (step plan execution host).1.Alike R (step other execution' host).1 ∧
      (step other execution' host).2 = (step plan execution host).2 := by
  obtain ⟨stage, store⟩ := execution
  obtain ⟨stage', store'⟩ := execution'
  obtain ⟨stages, same⟩ := alike
  change store' = store at same
  change Stage.Alike R stage stage' at stages
  subst same
  cases stages with
  | running pointer =>
      have reached := plans.program.getElem? pointer
      generalize present : plan.program[pointer]? = found,
        present' : other.program[pointer]? = found' at reached
      cases reached with
      | none =>
          rw [step_past_end present, step_past_end present']
          exact ⟨⟨.closing (.ok rfl), rfl⟩, rfl⟩
      | @some statement statement' same =>
          have done := statement.execute_alike plans.labels plans.library same
            (calls statement (Array.mem_of_getElem? present))
            (calls' statement' (Array.mem_of_getElem? present')) store' host
          rw [step_statement present, step_statement present']
          generalize (statement.execute plan).exec store' host = result,
            (statement'.execute other).exec store' host = result' at done
          cases done with
          | intro matched store host => exact ⟨⟨follow_alike pointer matched, rfl⟩, rfl⟩
  | @closing outcome outcome' outcomes =>
      rw [step_closing, step_closing]
      have flushed := flush_alike plans.last store' host
      generalize (Command.flush plan.program.lastPosition).exec store' host = done,
        (Command.flush other.program.lastPosition).exec store' host = done' at flushed
      cases flushed with
      | intro matched store host => exact ⟨⟨.finished (conclude_alike outcomes matched), rfl⟩, rfl⟩
  | finished outcomes => exact ⟨⟨.finished outcomes, rfl⟩, rfl⟩

theorem advance_lockStep {plan other : Plan} (plans : plan.Alike R other)
    (calls : plan.CallsStandard) (calls' : other.CallsStandard) (fuel : Nat)
    {execution execution' : Execution} (alike : execution.Alike R execution') (host : σ) :
    (advance plan fuel execution host).1.Alike R (advance other fuel execution' host).1 ∧
      (advance other fuel execution' host).2 = (advance plan fuel execution host).2 := by
  induction fuel generalizing execution execution' host with
  | zero => exact ⟨alike, rfl⟩
  | succ fuel ih =>
      obtain ⟨after, same⟩ := step_lockStep plans calls calls' alike host
      rw [advance_succ, advance_succ, same]
      exact ih after _

end Execution

theorem LabelTable.enter_alike {statements others : List Statement}
    (alike : List.Forall₂ (Statement.Alike R) statements others) (table : LabelTable)
    (shadowings : List Shadowing) (index : Nat) :
    enter table shadowings index others = enter table shadowings index statements := by
  induction alike generalizing table shadowings index with
  | nil => rfl
  | cons same _ ih =>
      cases same with
      | label name => exact ih _ _ _
      | assign _ | compute _ _ | branch _ _ _ | jump _ | halt | call _ _ => exact ih _ _ _

theorem LabelTable.collect_alike {program other : Program} (alike : Program.Alike R program other) :
    collect other = collect program :=
  enter_alike alike _ _ _

theorem Program.lastPosition_alike {program other : Program}
    (alike : Program.Alike R program other)
    (fallback : R (.start "<program>") (.start "<program>")) :
    R program.lastPosition other.lastPosition := by
  have reversed := List.forall₂_reverse_iff.mpr alike
  rw [lastPosition, lastPosition]
  generalize program.toList.reverse = statements, other.toList.reverse = others at reversed
  induction reversed with
  | nil => exact fallback
  | @cons statement other statements others same _ ih =>
      rw [List.findSome?_cons, List.findSome?_cons]
      cases same with
      | assign value => exact value.position
      | compute lhs _ => exact lhs.position
      | branch _ _ goal | jump goal => exact goal.position
      | label _ | halt => exact ih
      | call _ place => exact place

theorem Plan.alike_new {program other : Program} (alike : Program.Alike R program other)
    (fallback : R (.start "<program>") (.start "<program>")) (library : Library) :
    (Plan.new library program).Alike R (Plan.new library other) where
  program := alike
  labels := congrArg Prod.fst (LabelTable.collect_alike alike)
  library := rfl
  last := Program.lastPosition_alike alike fallback

end LineScript
