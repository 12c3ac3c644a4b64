import LineScript.Proofs.Exchange

/-!
Calls of the builtins for files. What such a call leaves, and what it asks of the host, is
determined by what its checks find: the cell where the data begin and, for writing, the end of the
range of cells.
-/

namespace LineScript

namespace Operand

theorem term_of_asVariable {operand : Operand} {name : String}
    (named : operand.asVariable = .ok name) : operand.term = .variable name := by
  rw [asVariable] at named
  split at named
  · next found =>
      cases named
      exact found
  · cases named

theorem isText_of_asVariable {operand : Operand} {name : String}
    (named : operand.asVariable = .ok name) : operand.isText = false := by
  rw [isText, term_of_asVariable named]

theorem refuseText_pair_ok {first second : Operand} (plain : first.isText = false)
    (plain' : second.isText = false) : refuseText [first, second] = .ok () := by
  simp [refuseText, plain, plain']

theorem refuseText_of_isText {first : Operand} (text : first.isText = true)
    (others : List Operand) :
    refuseText (first :: others) = .error ⟨.unexpectedString, first.position⟩ := by
  simp [refuseText, text]

end Operand

namespace Store

variable {store : Store} {operand : Operand}

theorem isText_of_evaluate {word : Int64} (evaluated : store.evaluate operand = .ok word) :
    operand.isText = false := by
  obtain ⟨_ | content | _, _⟩ := operand
  · rfl
  · cases evaluated
  · rfl

theorem cellOf_of_isText (text : operand.isText = true) (store : Store) (call : Position) :
    store.cellOf operand call = .error ⟨.unexpectedString, operand.position⟩ := by
  obtain ⟨_ | content | _, _⟩ := operand
  · cases text
  · rfl
  · cases text

end Store

namespace Builtin

variable {store : Store} {call : Position} {file cell length : Operand} {path : String}

theorem effect_readFile {name : String} (said : file.asText = .ok path)
    (named : length.asVariable = .ok name) :
    effect store call "read_file" [file, cell, length] =
      (store.cellOf cell call).map fun start => .load path start name call := by
  cases text : cell.isText with
  | true =>
      rw [effect, Operand.refuseText_of_isText text, Store.cellOf_of_isText text]
      rfl
  | false =>
      have plain := Operand.refuseText_pair_ok text (Operand.isText_of_asVariable named)
      rw [effect, Except.bind_of_eq_ok plain, Except.bind_of_eq_ok said, Except.bind_of_eq_ok named]
      cases store.cellOf cell call <;> rfl

theorem effect_writeFile {count : Int64} (said : file.asText = .ok path)
    (evaluated : store.evaluate length = .ok count) :
    effect store call "write_file" [file, cell, length] = do
      let start ← store.cellOf cell call
      let stop ← store.rangeEnd start count.toInt call
      let cells := (List.range' start (stop - start)).map store.memory.cell
      return .save path (cells.map lowByte) call := by
  cases text : cell.isText with
  | true =>
      rw [effect, Operand.refuseText_of_isText text, Store.cellOf_of_isText text]
      rfl
  | false =>
      have plain := Operand.refuseText_pair_ok text (Store.isText_of_evaluate evaluated)
      rw [effect, Except.bind_of_eq_ok plain, Except.bind_of_eq_ok said]
      cases store.cellOf cell call with
      | error error => rfl
      | ok start => exact Except.bind_of_eq_ok evaluated _

end Builtin

/-- A call that reaches a builtin comes to what the builtin comes to. -/
theorem Statement.effect_of_call {plan : Plan} (standard : plan.library = .standard) {store : Store}
    {name : String} {args : List Operand} {call : Position} {builtin : Builtin}
    (selected : Library.standard.select store name args call = .ok builtin) :
    (Statement.call name args call).effect plan store =
      (Builtin.effect store call name args).map fun effect => (effect, .proceed) := by
  rw [Statement.effect, standard, Except.bind_of_eq_ok selected]
  cases Builtin.effect store call name args <;> rfl

namespace Deed

variable {σ : Type} [Host σ] {deed : Deed σ} {file cell length : Operand} {call : Position}
  {path : String}

/-- What a call of a builtin leaves, by what it comes to. -/
theorem result_of_call (standard : deed.Standard) {name : String} {args : List Operand}
    (calls : deed.statement = .call name args call) {builtin : Builtin}
    (selected : Library.standard.select deed.store name args call = .ok builtin) :
    deed.result =
      match Builtin.effect deed.store call name args with
      | .error error => ((.error error, deed.store), deed.host)
      | .ok effect =>
          let done := effect.perform.exec deed.store deed.host
          ((done.1.1.map fun () => .proceed, done.1.2), done.2) := by
  rw [result, Statement.execute_exec standard.calls, calls,
    Statement.effect_of_call standard selected]
  cases Builtin.effect deed.store call name args with
  | error error => rfl
  | ok effect =>
      simp only [Except.map, Command.goOn, Statement.conclude, Command.exec_bind]
      rcases effect.perform.exec deed.store deed.host with ⟨⟨error | _, left⟩, after⟩
      · rfl
      · rfl

/-- A call of `read_file`, when the file can be read. -/
theorem readFile_result (standard : deed.Standard)
    (calls : deed.statement = .call "read_file" [file, cell, length] call) {name : String}
    {bytes : Bytes} {after : σ} (said : file.asText = .ok path)
    (named : length.asVariable = .ok name)
    (read : Host.answer (.readFile path) deed.host = (.ok bytes, after)) :
    deed.result =
      match deed.store.cellOf cell call with
      | .error error => ((.error error, deed.store), deed.host)
      | .ok start =>
          if start + bytes.length ≤ deed.store.memory.size then
            ((.ok .proceed, (deed.store.place start (bytes.map byteWord)).assign name
              (Int64.ofNat bytes.length)), after)
          else
            ((.error ⟨.rangeOutOfBounds start bytes.length deed.store.memory.size, call⟩,
              deed.store), after) := by
  have selected : Library.standard.select deed.store "read_file" [file, cell, length] call =
      .ok ⟨.fixed 3, false, Builtin.fillFromFile⟩ := rfl
  rw [result_of_call standard calls selected, Builtin.effect_readFile said named]
  cases deed.store.cellOf cell call with
  | error error => rfl
  | ok start =>
      simp only [Except.map, Effect.exec_load, read]
      by_cases fits : start + bytes.length ≤ deed.store.memory.size
      · simp only [if_pos fits]
      · simp only [if_neg fits]

/-- A call of `write_file`, when its length is a number. -/
theorem writeFile_result (standard : deed.Standard)
    (calls : deed.statement = .call "write_file" [file, cell, length] call) {count : Int64}
    (said : file.asText = .ok path) (evaluated : deed.store.evaluate length = .ok count) :
    deed.result =
      match deed.store.cellOf cell call with
      | .error error => ((.error error, deed.store), deed.host)
      | .ok start =>
          match deed.store.rangeEnd start count.toInt call with
          | .error error => ((.error error, deed.store), deed.host)
          | .ok stop =>
              let cells := (List.range' start (stop - start)).map deed.store.memory.cell
              match Host.answer (.writeFile path (cells.map lowByte)) deed.host with
              | (.ok (), after) => ((.ok .proceed, deed.store), after)
              | (.error reason, after) =>
                  ((.error ⟨.fileSystem path reason, call⟩, deed.store), after) := by
  have selected : Library.standard.select deed.store "write_file" [file, cell, length] call =
      .ok ⟨.fixed 3, false, Builtin.dumpToFile⟩ := rfl
  rw [result_of_call standard calls selected, Builtin.effect_writeFile said evaluated]
  cases deed.store.cellOf cell call with
  | error error => rfl
  | ok start =>
      dsimp only [bind, Except.bind]
      cases deed.store.rangeEnd start count.toInt call with
      | error error => rfl
      | ok stop =>
          simp only [pure, Except.pure, Effect.perform, Command.exec_saveFile]
          generalize Host.answer (.writeFile path _) deed.host = answered
          obtain ⟨reason | _, after⟩ := answered
          · rfl
          · rfl

/-- Once the checks have passed, writing succeeds if the host says so. -/
theorem writeFile_answered (standard : deed.Standard)
    (calls : deed.statement = .call "write_file" [file, cell, length] call) {count : Int64}
    (said : file.asText = .ok path) (evaluated : deed.store.evaluate length = .ok count)
    {start stop : Nat} (addressed : deed.store.cellOf cell call = .ok start)
    (bounded : deed.store.rangeEnd start count.toInt call = .ok stop) {bytes : Bytes}
    (held : ((List.range' start (stop - start)).map deed.store.memory.cell).map lowByte = bytes) :
    let answered := Host.answer (.writeFile path bytes) deed.host
    (deed.Succeeds ↔ answered.1 = .ok ()) ∧ deed.after = answered.2 := by
  have done := writeFile_result standard calls said evaluated
  subst held
  simp only [addressed, bounded] at done
  rw [Succeeds, after, done]
  rcases Host.answer (.writeFile path _) deed.host with ⟨reason | _, host⟩
  · refine ⟨⟨fun succeeds => ?_, fun same => by cases same⟩, rfl⟩
    obtain ⟨_, same⟩ := succeeds
    cases same
  · exact ⟨⟨fun _ => rfl, fun _ => ⟨_, rfl⟩⟩, rfl⟩

/-- A call of `write_file` asks the host to write the file once the checks have passed, and for
nothing else. -/
theorem writeFile_exchanges (standard : deed.Standard)
    (calls : deed.statement = .call "write_file" [file, cell, length] call) {count : Int64}
    (said : file.asText = .ok path) (evaluated : deed.store.evaluate length = .ok count) :
    deed.exchanges =
      match deed.store.cellOf cell call with
      | .error _ => []
      | .ok start =>
          match deed.store.rangeEnd start count.toInt call with
          | .error _ => []
          | .ok stop =>
              let cells := (List.range' start (stop - start)).map deed.store.memory.cell
              [⟨.writeFile path (cells.map lowByte), deed.host⟩] := by
  have recorded := @writeFile_result (Recorded σ) _ deed.recorded file cell length call path
    standard calls count said evaluated
  rw [exchanges_eq_record, after, recorded]
  dsimp only [Deed.recorded]
  cases deed.store.cellOf cell call with
  | error error => rfl
  | ok start =>
      dsimp only
      cases deed.store.rangeEnd start count.toInt call with
      | error error => rfl
      | ok stop =>
          dsimp only
          generalize answered : Host.answer (.writeFile path _) (Recorded.start deed.host) = reply
          obtain ⟨reason | _, after⟩ := reply
          · exact (Recorded.answer_eq answered).2
          · exact (Recorded.answer_eq answered).2

/-- What becomes of reading a file with these bytes into the cells from an address on. -/
structure ReadsWithin (deed : Deed σ) (cell : Operand) (call : Position) (name : String)
    (bytes : Bytes) : Prop where
  succeeds : deed.Succeeds ↔ ∃ start, deed.store.Addresses cell call (.ok start) ∧
    start + bytes.length ≤ deed.store.memory.size
  left : ∀ start, deed.store.Addresses cell call (.ok start) →
    start + bytes.length ≤ deed.store.memory.size →
    deed.left = (deed.store.place start (bytes.map byteWord)).assign name
      (Int64.ofNat bytes.length)
  unaddressed : ∀ error, deed.store.Addresses cell call (.error error) →
    deed.result = ((.error error, deed.store), deed.host)
  overfull : ∀ start error, deed.store.Addresses cell call (.ok start) →
    deed.store.Spans start bytes.length call (.error error) →
    deed.result.1 = (.error error, deed.store)

/-- What becomes of writing a number of cells from an address on to a file. -/
structure WritesWithin (deed : Deed σ) (path : String) (cell : Operand) (count : Int64)
    (call : Position) : Prop where
  writes : deed.exchanges ≠ [] ↔ ∃ start, deed.store.Addresses cell call (.ok start) ∧
    0 ≤ count.toInt ∧ count.toInt ≤ deed.store.memory.size - start
  written : ∀ start stop, deed.store.Addresses cell call (.ok start) →
    deed.store.Spans start count.toInt call (.ok stop) →
    let bytes := ((List.range' start (stop - start)).map deed.store.memory.cell).map lowByte
    deed.exchanges = [⟨.writeFile path bytes, deed.host⟩] ∧
      (deed.Succeeds ↔ (Host.answer (.writeFile path bytes) deed.host).1 = .ok ())
  unaddressed : ∀ error, deed.store.Addresses cell call (.error error) →
    deed.result = ((.error error, deed.store), deed.host)
  unbounded : ∀ start error, deed.store.Addresses cell call (.ok start) →
    deed.store.Spans start count.toInt call (.error error) →
    deed.result = ((.error error, deed.store), deed.host)

/-- Reading a file that the host delivers succeeds when the address is one and the whole file
fits. -/
theorem readFile_within (standard : deed.Standard)
    (calls : deed.statement = .call "read_file" [file, cell, length] call) {name : String}
    {bytes : Bytes} (said : file.asText = .ok path) (named : length.asVariable = .ok name)
    (delivered : (Host.answer (.readFile path) deed.host).1 = .ok bytes) :
    deed.ReadsWithin cell call name bytes := by
  have done := readFile_result standard calls said named (Prod.ext delivered rfl)
  have reads {start : Nat} (addresses : deed.store.Addresses cell call (.ok start))
      (fits : start + bytes.length ≤ deed.store.memory.size) : deed.result.1 =
        (.ok .proceed, (deed.store.place start (bytes.map byteWord)).assign name
          (Int64.ofNat bytes.length)) := by
    rw [done, (Store.cellOf_eq_iff _ _ _ _).mpr addresses]
    simp only [if_pos fits]
  have overfull {start : Nat} (addresses : deed.store.Addresses cell call (.ok start))
      (exceeds : ¬ start + bytes.length ≤ deed.store.memory.size) : deed.result.1 =
        (.error ⟨.rangeOutOfBounds start bytes.length deed.store.memory.size, call⟩,
          deed.store) := by
    rw [done, (Store.cellOf_eq_iff _ _ _ _).mpr addresses]
    simp only [if_neg exceeds]
  have fails {error : RunError} (addresses : deed.store.Addresses cell call (.error error)) :
      deed.result = ((.error error, deed.store), deed.host) := by
    rw [done, (Store.cellOf_eq_iff _ _ _ _).mpr addresses]
  constructor
  case succeeds =>
    constructor
    · rintro ⟨succession, succeeds⟩
      cases found : deed.store.cellOf cell call with
      | error error =>
          rw [fails ((Store.cellOf_eq_iff _ _ _ _).mp found)] at succeeds
          cases succeeds
      | ok start =>
          have addresses := (Store.cellOf_eq_iff _ _ _ _).mp found
          refine ⟨start, addresses, Decidable.of_not_not fun exceeds => ?_⟩
          rw [overfull addresses exceeds] at succeeds
          cases succeeds
    · rintro ⟨start, addresses, fits⟩
      exact ⟨.proceed, congrArg Prod.fst (reads addresses fits)⟩
  case left => exact fun start addresses fits => congrArg Prod.snd (reads addresses fits)
  case unaddressed => exact fun error => fails
  case overfull =>
    intro start error addresses spans
    cases spans with
    | beyond exceeds => exact overfull addresses (by omega)

/-- Writing a file asks the host for it when the address is one and so many cells stand behind it,
and leaves everything as it is otherwise. -/
theorem writeFile_within (standard : deed.Standard)
    (calls : deed.statement = .call "write_file" [file, cell, length] call) {count : Int64}
    (said : file.asText = .ok path) (evaluated : deed.store.evaluate length = .ok count) :
    deed.WritesWithin path cell count call := by
  have done := writeFile_result standard calls said evaluated
  have asked := writeFile_exchanges standard calls said evaluated
  have written {start stop : Nat} (addresses : deed.store.Addresses cell call (.ok start))
      (spans : deed.store.Spans start count.toInt call (.ok stop)) :
      deed.exchanges = [⟨.writeFile path
        (((List.range' start (stop - start)).map deed.store.memory.cell).map lowByte),
        deed.host⟩] := by
    rw [asked, (Store.cellOf_eq_iff _ _ _ _).mpr addresses]
    simp only [(Store.rangeEnd_eq_iff _ _ _ _ _).mpr spans]
  constructor
  case writes =>
    constructor
    · intro writes
      cases found : deed.store.cellOf cell call with
      | error error =>
          rw [asked, found] at writes
          exact absurd rfl writes
      | ok start =>
          cases bounded : deed.store.rangeEnd start count.toInt call with
          | error error =>
              simp only [asked, found, bounded] at writes
              exact absurd rfl writes
          | ok stop =>
              refine ⟨start, (Store.cellOf_eq_iff _ _ _ _).mp found, ?_⟩
              cases (Store.rangeEnd_eq_iff _ _ _ _ _).mp bounded with
              | within nonnegative same bound => exact ⟨nonnegative, by omega⟩
    · rintro ⟨start, addresses, nonnegative, bound⟩
      have spans : deed.store.Spans start count.toInt call (.ok (start + count.toInt.toNat)) :=
        .within nonnegative (by omega) (by omega)
      rw [written addresses spans]
      exact List.cons_ne_nil _ _
  case written =>
    intro start stop addresses spans
    refine ⟨written addresses spans, (writeFile_answered standard calls said evaluated ?_ ?_ rfl).1⟩
    · exact (Store.cellOf_eq_iff _ _ _ _).mpr addresses
    · exact (Store.rangeEnd_eq_iff _ _ _ _ _).mpr spans
  case unaddressed =>
    intro error addresses
    rw [done, (Store.cellOf_eq_iff _ _ _ _).mpr addresses]
  case unbounded =>
    intro start error addresses spans
    rw [done, (Store.cellOf_eq_iff _ _ _ _).mpr addresses]
    simp only [(Store.rangeEnd_eq_iff _ _ _ _ _).mpr spans]

end Deed

/-- The checks of addresses and ranges accept what lies in memory as integers, refuse everything
else with what they were given, and no word wraps around in them. So a file that can be read is read
when its address lies in memory and all of it fits behind, and a file is written when the address
does and there are so many cells behind it. -/
theorem bounds_exact :
    (∀ (store : Store) (operand : Operand) (call : Position) (outcome : Except RunError Nat),
      store.cellOf operand call = outcome ↔ store.Addresses operand call outcome) ∧
    (∀ (store : Store) (operand : Operand) (value : Int64) (call : Position),
      store.evaluate operand = .ok value →
      (store.cellOf operand call).toOption = (store.addressInWords? value).map UInt64.toNat) ∧
    (∀ (store : Store) (start : UInt64) (length : Int64) (call : Position)
        (outcome : Except RunError Nat),
      store.rangeEnd start.toNat length.toInt call = outcome ↔
        store.Spans start.toNat length.toInt call outcome) ∧
    (∀ (store : Store) (start : UInt64) (length : Int64) (call : Position),
      store.memory.size < UInt64.size →
      (store.rangeEnd start.toNat length.toInt call).toOption =
        (store.rangeEndInWords? start length).map UInt64.toNat) ∧
    (∀ {σ : Type} [Host σ] (deed : Deed σ) (file cell length : Operand) (call : Position)
        (path name : String) (bytes : Bytes),
      deed.Standard → deed.statement = .call "read_file" [file, cell, length] call →
      file.asText = .ok path → length.asVariable = .ok name →
      (Host.answer (.readFile path) deed.host).1 = .ok bytes →
      deed.ReadsWithin cell call name bytes) ∧
    (∀ {σ : Type} [Host σ] (deed : Deed σ) (file cell length : Operand) (call : Position)
        (path : String) (count : Int64),
      deed.Standard → deed.statement = .call "write_file" [file, cell, length] call →
      file.asText = .ok path → deed.store.evaluate length = .ok count →
      deed.WritesWithin path cell count call) := by
  refine ⟨Store.cellOf_eq_iff, ?_, ?_, ?_, ?_, ?_⟩
  · exact fun store operand value call evaluated => Store.cellOf_inWords evaluated call
  · exact fun store start length => store.rangeEnd_eq_iff start.toNat length.toInt
  · exact fun store start length call small => Store.rangeEnd_inWords small start length call
  · intro σ _ deed file cell length call path name bytes standard calls said named delivered
    exact Deed.readFile_within standard calls said named delivered
  · intro σ _ deed file cell length call path count standard calls said evaluated
    exact Deed.writeFile_within standard calls said evaluated

end LineScript
