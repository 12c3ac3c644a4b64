import LineScript.Proofs.Execute

/-!
What a statement comes to, form by form. When the checks of a statement pass, its effect and what
follows it are determined by the values of its operands. That is listed here once, with everything
the checks have found, and facts about statements that succeed are case analyses of the list.
-/

namespace LineScript

theorem Except.of_bind_eq_ok {ε α β : Type} {result : Except ε α} {next : α → Except ε β}
    {value : β} (found : (result >>= next) = .ok value) :
    ∃ first, result = .ok first ∧ next first = .ok value := by
  cases result with
  | error error => cases found
  | ok first => exact ⟨first, rfl, found⟩

theorem Except.bind_of_eq_ok {ε α β : Type} {result : Except ε α} {value : α}
    (found : result = .ok value) (next : α → Except ε β) : (result >>= next) = next value := by
  rw [found]
  rfl

theorem Arithmetic.eval_of_evalAt {op : Arithmetic} {lhs rhs word : Int64} {position : Position}
    (found : op.evalAt lhs rhs position = .ok word) : op.eval lhs rhs = .ok word := by
  rw [evalAt] at found
  split at found
  · next value evaluated =>
      cases found
      exact evaluated
  · cases found
  · cases found

namespace Statement

/-- The effect that a statement has when its checks pass, and what follows it. -/
inductive ComesTo (plan : Plan) (store : Store) : Statement → Effect → Succession → Prop
  | assign {target : String} {value : Operand} {word : Int64}
      (evaluated : store.evaluate value = .ok word) :
      ComesTo plan store (.assign target value) (.assign target word) .proceed
  | compute {target : String} {op : Arithmetic} {lhs rhs : Operand} {left right word : Int64}
      (first : store.evaluate lhs = .ok left) (second : store.evaluate rhs = .ok right)
      (computed : op.eval left right = .ok word) :
      ComesTo plan store (.compute target op lhs rhs) (.assign target word) .proceed
  | taken {op : Comparison} {lhs rhs : Operand} {destination : Destination} {left right : Int64}
      {index : Nat} (first : store.evaluate lhs = .ok left)
      (second : store.evaluate rhs = .ok right) (holds : op.eval left right = true)
      (located : plan.labels.locate destination = .ok index) :
      ComesTo plan store (.branch op lhs rhs destination) .nothing (.jump index)
  | passed {op : Comparison} {lhs rhs : Operand} {destination : Destination} {left right : Int64}
      (first : store.evaluate lhs = .ok left) (second : store.evaluate rhs = .ok right)
      (fails : op.eval left right = false) :
      ComesTo plan store (.branch op lhs rhs destination) .nothing .proceed
  | label (name : String) : ComesTo plan store (.label name) .nothing .proceed
  | jump {destination : Destination} {index : Nat}
      (located : plan.labels.locate destination = .ok index) :
      ComesTo plan store (.jump destination) .nothing (.jump index)
  | halt : ComesTo plan store .halt .nothing .stop
  | showCharacter {operand : Operand} {call : Position} {word : Int64}
      (evaluated : store.evaluate operand = .ok word) :
      ComesTo plan store (.call "showc" [operand] call) (.write [lowByte word] call) .proceed
  | showNumber {operand : Operand} {call : Position} {word : Int64}
      (evaluated : store.evaluate operand = .ok word) :
      ComesTo plan store (.call "shown" [operand] call)
        (.write (.ofText (Numeral.ofWord word)) call) .proceed
  | takeByte {target : Operand} {call : Position} {name : String}
      (named : target.asVariable = .ok name) :
      ComesTo plan store (.call "input" [target] call) (.take name call) .proceed
  | setCell {cell source : Operand} {call : Position} {address : Nat} {word : Int64}
      (addressed : store.cellOf cell call = .ok address)
      (evaluated : store.evaluate source = .ok word) :
      ComesTo plan store (.call "memset" [cell, source] call) (.poke address word) .proceed
  | getCell {cell target : Operand} {call : Position} {address : Nat} {name : String}
      (addressed : store.cellOf cell call = .ok address)
      (named : target.asVariable = .ok name) :
      ComesTo plan store (.call "memget" [cell, target] call)
        (.assign name (store.memory.cell address)) .proceed
  | inspect {args : List Operand} {call : Position} {lines : List String}
      (shown : (args.mapM fun operand =>
        (Builtin.shownValue store operand).map (Builtin.inspectionLine operand)) = .ok lines) :
      ComesTo plan store (.call "debug" args call) (.write (.ofText (String.join lines)) call)
        .proceed
  | fillFromFile {file cell length : Operand} {call : Position} {path name : String} {start : Nat}
      (said : file.asText = .ok path) (named : length.asVariable = .ok name)
      (addressed : store.cellOf cell call = .ok start) :
      ComesTo plan store (.call "read_file" [file, cell, length] call) (.load path start name call)
        .proceed
  | dumpToFile {file cell length : Operand} {call : Position} {path : String} {start stop : Nat}
      {count : Int64} (said : file.asText = .ok path)
      (addressed : store.cellOf cell call = .ok start)
      (evaluated : store.evaluate length = .ok count)
      (bounded : store.rangeEnd start count.toInt call = .ok stop) :
      ComesTo plan store (.call "write_file" [file, cell, length] call)
        (.save path (((List.range' start (stop - start)).map store.memory.cell).map lowByte) call)
        .proceed

theorem comesTo_of_builtin {plan : Plan} {store : Store} {name : String} {args : List Operand}
    {call : Position} {effect : Effect} (found : Builtin.effect store call name args = .ok effect) :
    ComesTo plan store (.call name args call) effect .proceed := by
  rw [Builtin.effect.eq_def] at found
  split at found
  · obtain ⟨_, _, found⟩ := Except.of_bind_eq_ok found
    obtain ⟨word, evaluated, found⟩ := Except.of_bind_eq_ok found
    cases found
    exact .showCharacter evaluated
  · obtain ⟨_, _, found⟩ := Except.of_bind_eq_ok found
    obtain ⟨word, evaluated, found⟩ := Except.of_bind_eq_ok found
    cases found
    exact .showNumber evaluated
  · obtain ⟨_, _, found⟩ := Except.of_bind_eq_ok found
    obtain ⟨name, named, found⟩ := Except.of_bind_eq_ok found
    cases found
    exact .takeByte named
  · obtain ⟨_, _, found⟩ := Except.of_bind_eq_ok found
    obtain ⟨address, addressed, found⟩ := Except.of_bind_eq_ok found
    obtain ⟨word, evaluated, found⟩ := Except.of_bind_eq_ok found
    cases found
    exact .setCell addressed evaluated
  · obtain ⟨_, _, found⟩ := Except.of_bind_eq_ok found
    obtain ⟨address, addressed, found⟩ := Except.of_bind_eq_ok found
    obtain ⟨name, named, found⟩ := Except.of_bind_eq_ok found
    cases found
    exact .getCell addressed named
  · obtain ⟨lines, shown, found⟩ := Except.of_bind_eq_ok found
    cases found
    exact .inspect shown
  · obtain ⟨_, _, found⟩ := Except.of_bind_eq_ok found
    obtain ⟨path, said, found⟩ := Except.of_bind_eq_ok found
    obtain ⟨name, named, found⟩ := Except.of_bind_eq_ok found
    obtain ⟨start, addressed, found⟩ := Except.of_bind_eq_ok found
    cases found
    exact .fillFromFile said named addressed
  · obtain ⟨_, _, found⟩ := Except.of_bind_eq_ok found
    obtain ⟨path, said, found⟩ := Except.of_bind_eq_ok found
    obtain ⟨start, addressed, found⟩ := Except.of_bind_eq_ok found
    obtain ⟨count, evaluated, found⟩ := Except.of_bind_eq_ok found
    obtain ⟨stop, bounded, found⟩ := Except.of_bind_eq_ok found
    cases found
    exact .dumpToFile said addressed evaluated bounded
  · cases found

theorem comesTo_of_effect {plan : Plan} {store : Store} {statement : Statement} {effect : Effect}
    {succession : Succession} (found : statement.effect plan store = .ok (effect, succession)) :
    ComesTo plan store statement effect succession := by
  cases statement with
  | assign target value =>
      obtain ⟨word, evaluated, found⟩ := Except.of_bind_eq_ok found
      cases found
      exact .assign evaluated
  | compute target op lhs rhs =>
      obtain ⟨left, first, found⟩ := Except.of_bind_eq_ok found
      obtain ⟨right, second, found⟩ := Except.of_bind_eq_ok found
      obtain ⟨word, computed, found⟩ := Except.of_bind_eq_ok found
      cases found
      exact .compute first second (Arithmetic.eval_of_evalAt computed)
  | branch op lhs rhs destination =>
      obtain ⟨left, first, found⟩ := Except.of_bind_eq_ok found
      obtain ⟨right, second, found⟩ := Except.of_bind_eq_ok found
      cases holds : op.eval left right with
      | true =>
          rw [if_pos holds] at found
          obtain ⟨index, located, found⟩ := Except.of_bind_eq_ok found
          cases found
          exact .taken first second holds located
      | false =>
          rw [if_neg (by simp [holds])] at found
          cases found
          exact .passed first second holds
  | label name =>
      cases found
      exact .label name
  | jump destination =>
      obtain ⟨index, located, found⟩ := Except.of_bind_eq_ok found
      cases found
      exact .jump located
  | halt =>
      cases found
      exact .halt
  | call name args position =>
      obtain ⟨_, _, found⟩ := Except.of_bind_eq_ok found
      obtain ⟨made, built, found⟩ := Except.of_bind_eq_ok found
      cases found
      exact comesTo_of_builtin built

/-- A statement that succeeds has had the effect that it comes to. -/
theorem performed_of_succeeds {σ : Type} [Host σ] {plan : Plan} {statement : Statement}
    (calls : statement.CallsStandard plan.library) {store left : Store} {host after : σ}
    {succession : Succession}
    (succeeds : (statement.execute plan).exec store host = ((.ok succession, left), after)) :
    ∃ effect, ComesTo plan store statement effect succession ∧
      Effect.Performed store host effect ((.ok (), left), after) := by
  have executed := execute_executed calls store host
  rw [succeeds] at executed
  cases executed with
  | done effect checks performed =>
      refine ⟨effect, comesTo_of_effect checks, ?_⟩
      rw [← performed]
      exact effect.perform_performed store host

/-- A statement that succeeds is known by what it comes to, unless it calls a builtin of the host's
own. Such a call goes on with the next statement. -/
theorem comesTo_or_call {σ : Type} [Host σ] {plan : Plan} {statement : Statement} {store : Store}
    {host : σ} {succession : Succession}
    (succeeds : ((statement.execute plan).exec store host).1.1 = .ok succession) :
    (∃ effect, ComesTo plan store statement effect succession) ∨
      (∃ name args call, statement = .call name args call) ∧ succession = .proceed := by
  rcases done : (statement.execute plan).exec store host with ⟨⟨result, left⟩, after⟩
  rw [done] at succeeds
  obtain rfl : result = .ok succession := succeeds
  cases statement with
  | call name args call =>
      refine .inr ⟨⟨name, args, call, rfl⟩, ?_⟩
      rw [execute, Command.exec_bind] at done
      rcases called : (plan.library.perform name args call).exec store host with
        ⟨⟨error | _, between⟩, ready⟩
      · rw [called] at done
        cases done
      · rw [called] at done
        cases done
        rfl
  | _ =>
      obtain ⟨effect, comes, _⟩ := performed_of_succeeds (by exact trivial) done
      exact .inl ⟨effect, comes⟩

/-- A statement that fails leaves the store as it was. -/
theorem store_of_fails {σ : Type} [Host σ] {plan : Plan} {statement : Statement}
    (calls : statement.CallsStandard plan.library) {store left : Store} {host after : σ}
    {error : RunError}
    (fails : (statement.execute plan).exec store host = ((.error error, left), after)) :
    left = store := by
  have executed := execute_executed calls store host
  rw [fails] at executed
  cases executed with
  | rejected checks => rfl
  | failed effect checks performed =>
      have done := effect.perform_performed store host
      rw [performed] at done
      cases done <;> rfl

end Statement
end LineScript
