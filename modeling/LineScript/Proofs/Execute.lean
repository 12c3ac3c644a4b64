import LineScript.Proofs.Bounds
import LineScript.Proofs.Effect

/-!
What a statement does. Every statement first checks its operands against the store, without asking
the host and without changing anything, and then has one effect. The checks and the effect that
they come to are a function of the store here, and carrying a statement out is shown to be the same
as having its effect, so what holds of effects holds of statements and runs.
-/

namespace LineScript

namespace Builtin

/-- What a call of a standard builtin comes to when the library has let it pass. -/
def effect (store : Store) (call : Position) :
    String → List Operand → Except RunError Effect
  | "showc", [operand] => do
      Operand.refuseText [operand]
      let value ← store.evaluate operand
      return .write [lowByte value] call
  | "shown", [operand] => do
      Operand.refuseText [operand]
      let value ← store.evaluate operand
      return .write (.ofText (Numeral.ofWord value)) call
  | "input", [target] => do
      Operand.refuseText [target]
      let name ← target.asVariable
      return .take name call
  | "memset", [cell, source] => do
      Operand.refuseText [cell, source]
      let address ← store.cellOf cell call
      let value ← store.evaluate source
      return .poke address value
  | "memget", [cell, target] => do
      Operand.refuseText [cell, target]
      let address ← store.cellOf cell call
      let name ← target.asVariable
      return .assign name (store.memory.cell address)
  | "debug", args => do
      let lines ← args.mapM fun operand =>
        (shownValue store operand).map (inspectionLine operand)
      return .write (.ofText (String.join lines)) call
  | "read_file", [file, cell, length] => do
      Operand.refuseText [cell, length]
      let path ← file.asText
      let name ← length.asVariable
      let start ← store.cellOf cell call
      return .load path start name call
  | "write_file", [file, cell, length] => do
      Operand.refuseText [cell, length]
      let path ← file.asText
      let start ← store.cellOf cell call
      let count ← store.evaluate length
      let stop ← store.rangeEnd start count.toInt call
      let cells := (List.range' start (stop - start)).map store.memory.cell
      return .save path (cells.map lowByte) call
  | _, _ => .error ⟨.breach .missingOperand, call⟩

end Builtin

namespace Statement

/-- What a statement comes to on a store, and what follows it. -/
def effect (plan : Plan) (store : Store) : Statement → Except RunError (Effect × Succession)
  | .assign target value => do
      let value ← store.evaluate value
      return (.assign target value, .proceed)
  | .compute target op lhs rhs => do
      let left ← store.evaluate lhs
      let right ← store.evaluate rhs
      let value ← op.evalAt left right rhs.position
      return (.assign target value, .proceed)
  | .branch op lhs rhs destination => do
      let left ← store.evaluate lhs
      let right ← store.evaluate rhs
      if op.eval left right then
        let index ← plan.labels.locate destination
        return (.nothing, .jump index)
      else return (.nothing, .proceed)
  | .label _ => return (.nothing, .proceed)
  | .jump destination => do
      let index ← plan.labels.locate destination
      return (.nothing, .jump index)
  | .halt => return (.nothing, .stop)
  | .call name args position => do
      let _ ← plan.library.select store name args position
      let effect ← Builtin.effect store position name args
      return (effect, .proceed)

def operands : Statement → List Operand
  | .assign _ value => [value]
  | .compute _ _ lhs rhs | .branch _ lhs rhs _ => [lhs, rhs]
  | .label _ | .jump _ | .halt => []
  | .call _ args _ => args

/-- A call that reaches a standard builtin, if it reaches any. -/
def CallsStandard (library : Library) : Statement → Prop
  | .call name _ _ =>
      ∀ builtin, library.find? name = some builtin → (name, builtin) ∈ Builtin.standard
  | _ => True

end Statement

namespace Command

variable {σ α β ε : Type} [Host σ]

/-- Goes on with what the checks found, or fails as they failed. -/
def goOn (perform : ε → Command β) (store : Store) (host : σ) :
    Except RunError ε → (Except RunError β × Store) × σ
  | .error error => ((.error error, store), host)
  | .ok found => (perform found).exec store host

theorem exec_ofExcept_bind {perform : ε → Command β} {result : Except RunError α}
    {next : α → Command β} {checks : α → Except RunError ε} {store : Store} {host : σ}
    (rest : ∀ value, result = .ok value →
      (next value).exec store host = goOn perform store host (checks value)) :
    (ofExcept result >>= next).exec store host = goOn perform store host (result >>= checks) := by
  rw [exec_bind, exec_ofExcept]
  cases result with
  | error error => rfl
  | ok value => exact rest value rfl

theorem exec_check_bind {perform : ε → Command β} {read : Store → Except RunError α}
    {next : α → Command β} {checks : α → Except RunError ε} {store : Store} {host : σ}
    (rest : ∀ value, read store = .ok value →
      (next value).exec store host = goOn perform store host (checks value)) :
    (check read >>= next).exec store host =
      goOn perform store host (read store >>= checks) :=
  exec_ofExcept_bind rest

end Command

namespace Builtin
open Command

variable {σ : Type} [Host σ]

theorem fillFromFile_exec (path name : String) (start : Nat) (call : Position) (store : Store)
    (host : σ) :
    (do
      let bytes ← loadFile path call
      let stop ← rangeEnd start bytes.length call
      writeCells start stop (bytes.map byteWord) call
      assign name (Int64.ofNat bytes.length) : Command Unit).exec store host =
    (Effect.load path start name call).perform.exec store host := by
  simp only [Effect.perform, exec_bind, exec_loadFile]
  obtain ⟨reason | bytes, host⟩ := Host.answer (.readFile path) host
  · rfl
  · simp only [rangeEnd, exec_check]
    cases found : store.rangeEnd start bytes.length call with
    | error error => rfl
    | ok stop =>
        obtain ⟨ordered, inside, exact⟩ := Store.of_rangeEnd found
        have all : (bytes.map byteWord).take (stop - start) = bytes.map byteWord :=
          List.take_of_length_le (by rw [List.length_map]; omega)
        simp only [exec_writeCells, Memory.fill?, if_pos (And.intro ordered inside), all]
        rfl

/-- The entries in the table of standard builtins. -/
inductive Standard : String → Builtin → Prop
  | showc : Standard "showc" ⟨.fixed 1, true, showCharacter⟩
  | shown : Standard "shown" ⟨.fixed 1, true, showNumber⟩
  | input : Standard "input" ⟨.fixed 1, false, takeByte⟩
  | memset : Standard "memset" ⟨.fixed 2, true, setCell⟩
  | memget : Standard "memget" ⟨.fixed 2, false, getCell⟩
  | debug : Standard "debug" ⟨.any, true, inspect⟩
  | readFile : Standard "read_file" ⟨.fixed 3, false, fillFromFile⟩
  | writeFile : Standard "write_file" ⟨.fixed 3, false, dumpToFile⟩

theorem Standard.of_mem {name : String} {builtin : Builtin}
    (member : (name, builtin) ∈ standard) : Standard name builtin := by
  simp only [standard, List.mem_cons, Prod.mk.injEq, List.not_mem_nil, or_false] at member
  rcases member with ⟨rfl, rfl⟩ | ⟨rfl, rfl⟩ | ⟨rfl, rfl⟩ | ⟨rfl, rfl⟩ | ⟨rfl, rfl⟩ |
    ⟨rfl, rfl⟩ | ⟨rfl, rfl⟩ | ⟨rfl, rfl⟩ <;> constructor

theorem handler_exec {name : String} {builtin : Builtin}
    (member : (name, builtin) ∈ standard) (call : Position) (args : List Operand)
    (store : Store) (host : σ) :
    (builtin.handler call args).exec store host =
      goOn Effect.perform store host (effect store call name args) := by
  cases Standard.of_mem member with
  | showc | shown =>
      match args with
      | [operand] =>
          apply exec_ofExcept_bind
          intro _ _
          apply exec_check_bind
          intro value _
          rfl
      | [] | _ :: _ :: _ => rfl
  | input =>
      match args with
      | [target] =>
          apply exec_ofExcept_bind
          intro _ _
          apply exec_ofExcept_bind
          intro name _
          rfl
      | [] | _ :: _ :: _ => rfl
  | memset =>
      match args with
      | [cell, source] =>
          apply exec_ofExcept_bind
          intro _ _
          apply exec_check_bind
          intro address found
          apply exec_check_bind
          intro value _
          obtain ⟨_, _, _, inside⟩ := Store.of_cellOf found
          rw [exec_writeCell, Memory.set?, if_pos inside]
          rfl
      | [] | [_] | _ :: _ :: _ :: _ => rfl
  | memget =>
      match args with
      | [cell, target] =>
          apply exec_ofExcept_bind
          intro _ _
          apply exec_check_bind
          intro address found
          apply exec_ofExcept_bind
          intro name _
          obtain ⟨_, _, _, inside⟩ := Store.of_cellOf found
          rw [exec_bind, exec_readCell, Memory.get?, if_pos inside]
          rfl
      | [] | [_] | _ :: _ :: _ :: _ => rfl
  | debug =>
      apply exec_check_bind
      intro lines _
      rfl
  | readFile =>
      match args with
      | [file, cell, length] =>
          apply exec_ofExcept_bind
          intro _ _
          apply exec_ofExcept_bind
          intro path _
          apply exec_ofExcept_bind
          intro name _
          apply exec_check_bind
          intro start _
          exact fillFromFile_exec path name start call store host
      | [] | [_] | [_, _] | _ :: _ :: _ :: _ :: _ => rfl
  | writeFile =>
      match args with
      | [file, cell, length] =>
          apply exec_ofExcept_bind
          intro _ _
          apply exec_ofExcept_bind
          intro path _
          apply exec_check_bind
          intro start _
          apply exec_check_bind
          intro count _
          apply exec_check_bind
          intro stop found
          obtain ⟨ordered, inside, _⟩ := Store.of_rangeEnd found
          rw [exec_bind, exec_readCells, Memory.slice?, if_pos ⟨ordered, inside⟩]
          rfl
      | [] | [_] | [_, _] | _ :: _ :: _ :: _ :: _ => rfl

end Builtin

theorem Library.find?_of_select {library : Library} {store : Store} {name : String}
    {args : List Operand} {call : Position} {builtin : Builtin}
    (selected : library.select store name args call = .ok builtin) :
    library.find? name = some builtin := by
  rw [select] at selected
  split at selected
  · cases selected
  · next reached found =>
      split at selected
      · cases selected
      · split at selected
        · cases checked : store.checkVariables args <;> rw [checked] at selected <;> cases selected
          exact found
        · cases selected
          exact found

theorem Library.mem_of_find?_foldl (entries : List (String × Builtin)) {library : Library}
    {name : String} {builtin : Builtin}
    (found : (entries.foldl (fun library entry => library.add entry.1 entry.2) library).find? name =
      some builtin) : (name, builtin) ∈ entries ∨ library.find? name = some builtin := by
  induction entries generalizing library with
  | nil => exact .inr found
  | cons entry entries ih =>
      obtain member | found := ih found
      · exact .inl (List.mem_cons_of_mem entry member)
      · rw [find?_add] at found
        by_cases same : entry.1 = name
        · rw [if_pos same] at found
          cases found
          cases same
          exact .inl List.mem_cons_self
        · rw [if_neg same] at found
          exact .inr found

theorem Library.mem_standard_of_find? {name : String} {builtin : Builtin}
    (found : standard.find? name = some builtin) : (name, builtin) ∈ Builtin.standard := by
  obtain member | found := mem_of_find?_foldl Builtin.standard found
  · exact member
  · simp [empty, find?] at found

/-- Every call of the program that reaches a builtin reaches a standard one. -/
def Plan.CallsStandard (plan : Plan) : Prop :=
  ∀ statement ∈ plan.program, statement.CallsStandard plan.library

theorem Plan.callsStandard_new (program : Program) : (new .standard program).CallsStandard := by
  intro statement _
  cases statement with
  | call name args position => exact fun builtin found => Library.mem_standard_of_find? found
  | _ => exact trivial

theorem Library.perform_exec {σ : Type} [Host σ] {library : Library} {name : String}
    {args : List Operand} {call : Position}
    (calls : (Statement.call name args call).CallsStandard library) (store : Store) (host : σ) :
    (library.perform name args call).exec store host =
      Command.goOn Effect.perform store host (do
        let _ ← library.select store name args call
        Builtin.effect store call name args) :=
  Command.exec_check_bind fun builtin selected =>
    Builtin.handler_exec (calls builtin (find?_of_select selected)) call args store host

namespace Statement
open Command

variable {σ : Type} [Host σ]

/-- Has the effect and passes on what follows. -/
def conclude (found : Effect × Succession) : Command Succession := do
  found.1.perform
  return found.2

theorem execute_exec {plan : Plan} {statement : Statement}
    (calls : statement.CallsStandard plan.library) (store : Store) (host : σ) :
    (statement.execute plan).exec store host =
      goOn conclude store host (statement.effect plan store) := by
  cases statement with
  | assign target value => exact exec_check_bind fun value _ => rfl
  | compute target op lhs rhs =>
      exact exec_check_bind fun left _ => exec_check_bind fun right _ =>
        exec_ofExcept_bind fun value _ => rfl
  | branch op lhs rhs destination =>
      refine exec_check_bind fun left _ => exec_check_bind fun right _ => ?_
      split
      · exact exec_ofExcept_bind fun index _ => rfl
      · rfl
  | label name => rfl
  | jump destination => exact exec_ofExcept_bind fun index _ => rfl
  | halt => rfl
  | call name args position =>
      rw [execute, exec_bind, Library.perform_exec calls, effect]
      cases plan.library.select store name args position with
      | error error => rfl
      | ok builtin =>
          cases Builtin.effect store position name args with
          | error error => rfl
          | ok effect => exact (exec_bind effect.perform _ store host).symm

/-- The ways in which carrying out a statement can end: its checks fail, its effect fails, or
neither does. -/
inductive Executed (plan : Plan) (statement : Statement) (store : Store) (host : σ) :
    (Except RunError Succession × Store) × σ → Prop
  | rejected {error : RunError} (checks : statement.effect plan store = .error error) :
      Executed plan statement store host ((.error error, store), host)
  | failed (effect : Effect) {succession : Succession} {error : RunError} {left : Store}
      {after : σ} (checks : statement.effect plan store = .ok (effect, succession))
      (performed : effect.perform.exec store host = ((.error error, left), after)) :
      Executed plan statement store host ((.error error, left), after)
  | done (effect : Effect) {succession : Succession} {left : Store} {after : σ}
      (checks : statement.effect plan store = .ok (effect, succession))
      (performed : effect.perform.exec store host = ((.ok (), left), after)) :
      Executed plan statement store host ((.ok succession, left), after)

theorem execute_executed {plan : Plan} {statement : Statement}
    (calls : statement.CallsStandard plan.library) (store : Store) (host : σ) :
    Executed plan statement store host ((statement.execute plan).exec store host) := by
  rw [execute_exec calls]
  cases checks : statement.effect plan store with
  | error error => exact .rejected checks
  | ok found =>
      obtain ⟨effect, succession⟩ := found
      rw [goOn, conclude, exec_bind]
      rcases performed : effect.perform.exec store host with ⟨⟨error | _, left⟩, after⟩
      · exact .failed effect checks performed
      · exact .done effect checks performed

end Statement
end LineScript
