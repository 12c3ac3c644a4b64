import LineScript.Proofs.ControlFlow
import LineScript.Proofs.SourceLines

/-!
Labels and the lines that jump to them. A name that is a label and no keyword is a destination too,
so the lines that jump to it are statements in every source, and they lead to its last definition.
The names of keywords are labels that no line can jump to.
-/

namespace LineScript

namespace Line

/-- The line of the definition of a name. -/
def Defines (name : String) (line : List Char) : Prop :=
  Spells [':' :: name.toList] line

/-- The lines that jump to a name, always or under a comparison. -/
inductive JumpsTo (name : String) (line : List Char) : Prop
  | always : Spells ["goto".toList, name.toList] line → JumpsTo name line
  | compared {op : Comparison} {lhs rhs : Operand.Term} {left right : List Char} :
      Operand.Spelled lhs left → Operand.Spelled rhs right →
      Spells ["if".toList, left, op.spelling.toList, right, "goto".toList, name.toList] line →
      JumpsTo name line

/-- The number of the last line that defines the name. -/
structure LastDefinition (lines : List (List Char)) (name : String) (last : Nat) : Prop where
  defined : ∃ line, lines[last]? = some line ∧ Defines name line
  final : ∀ number line, lines[number]? = some line → Defines name line → number ≤ last

end Line

theorem Token.isWord_of_label {source file : String} {tokens : List Token}
    (read : readAll source file = .ok tokens) {token : Token} (member : token ∈ tokens)
    (isLabel : token.kind = .label) : Lexeme.IsWord token.text.toList := by
  obtain ⟨found, lexemes, rfl⟩ := (readAll_eq_ok_iff source file tokens).mp read
  obtain real | rfl := mem_of_mem_close member
  · obtain ⟨before, lexeme, after, _, next, rfl⟩ := lexemes.placed token real
    exact (((Lexeme.next_ok_iff after lexeme).mp next).1.of_label isLabel).1
  · cases isLabel

namespace Statement

variable {name : String} {line : List Char} {statement : Statement}

/-- The statement of a line that defines a label. -/
theorem On.label_of_defines (on : statement.On line) (defines : Line.Defines name line)
    (isWord : Lexeme.IsWord name.toList) : statement = .label name := by
  have same := on.unplaced_eq defines (.label isWord)
  cases statement with
  | label other => exact same
  | _ => cases same

/-- Jumps as they are written, at no place of their own. -/
theorem spelled_jump (isName : Lexeme.IsName name) :
    Spelled (.jump ⟨name, .start ""⟩) ["goto".toList, name.toList] :=
  .jump isName

theorem spelled_branch {op : Comparison} {lhs rhs : Operand.Term} {left right : List Char}
    (leftSpelled : Operand.Spelled lhs left) (rightSpelled : Operand.Spelled rhs right)
    (isName : Lexeme.IsName name) :
    Spelled (.branch op ⟨lhs, lhs.token⟩ ⟨rhs, rhs.token⟩ ⟨name, .start ""⟩)
      ["if".toList, left, op.spelling.toList, right, "goto".toList, name.toList] :=
  .branch leftSpelled rightSpelled isName

theorem On.jump_of_goto (on : statement.On line)
    (spells : Line.Spells ["goto".toList, name.toList] line) (isName : Lexeme.IsName name) :
    ∃ position, statement = .jump ⟨name, position⟩ := by
  have same := on.unplaced_eq spells (spelled_jump isName)
  cases statement with
  | jump destination =>
      obtain ⟨label, position⟩ := destination
      cases same
      exact ⟨position, rfl⟩
  | _ => cases same

theorem On.branch_of_if (on : statement.On line) {op : Comparison} {lhs rhs : Operand.Term}
    {left right : List Char} (leftSpelled : Operand.Spelled lhs left)
    (rightSpelled : Operand.Spelled rhs right)
    (spells : Line.Spells
      ["if".toList, left, op.spelling.toList, right, "goto".toList, name.toList] line)
    (isName : Lexeme.IsName name) :
    ∃ first second position, statement = .branch op first second ⟨name, position⟩ ∧
      first.term = lhs ∧ second.term = rhs := by
  have same := on.unplaced_eq spells (spelled_branch leftSpelled rightSpelled isName)
  cases statement with
  | branch other first second destination =>
      obtain ⟨label, position⟩ := destination
      obtain ⟨rfl, firstSame, secondSame, aimed⟩ := branch.inj same
      cases (Destination.mk.inj aimed).1
      exact ⟨first, second, position, rfl, congrArg Operand.term firstSame,
        congrArg Operand.term secondSame⟩
  | _ => cases same

end Statement

/-- A line that jumps to a name is a statement. -/
theorem Line.JumpsTo.exists_on {name : String} {line : List Char} (jumps : JumpsTo name line)
    (isName : Lexeme.IsName name) : ∃ statement : Statement, statement.On line := by
  cases jumps with
  | always spells => exact Statement.exists_on_of_spells spells (Statement.spelled_jump isName)
  | compared leftSpelled rightSpelled spells =>
      exact Statement.exists_on_of_spells spells
        (Statement.spelled_branch leftSpelled rightSpelled isName)

namespace Program

variable {lines : List (List Char)} {program : Program} {name : String}

/-- The statement of the last line that defines a name is the last one that defines it. -/
theorem Lined.exists_lastDefinition (lined : Lined lines program.toList)
    (isWord : Lexeme.IsWord name.toList) (defined : ∃ line ∈ lines, Line.Defines name line) :
    ∃ last, Line.LastDefinition lines name last ∧
      program.LastLabel name (Line.statementIndex lines last) := by
  have labelled {number : Nat} {line : List Char} (inside : lines[number]? = some line)
      (defines : Line.Defines name line) :
      program[Line.statementIndex lines number]? = some (.label name) := by
    obtain ⟨_, stands⟩ := Statement.exists_on_of_spells defines (.label isWord)
    obtain ⟨statement, found, on⟩ := lined.exists_statement inside stands.not_blank
    rw [← on.label_of_defines defines isWord, ← Array.getElem?_toList]
    exact found
  obtain ⟨line, member, defines⟩ := defined
  obtain ⟨number, inside⟩ := List.getElem?_of_mem member
  have present : .label name ∈ program := Array.mem_of_getElem? (labelled inside defines)
  cases found : (LabelTable.ofProgram program).index? name with
  | none => exact absurd present ((LabelTable.index?_ofProgram_eq_none_iff program name).mp found)
  | some target =>
      have final := (LabelTable.index?_ofProgram_eq_some_iff program name target).mp found
      have here : program.toList[target]? = some (.label name) := by
        rw [Array.getElem?_toList]
        exact final.1
      obtain ⟨last, line, inside, rfl, on⟩ := lined.exists_line here
      refine ⟨last, ⟨⟨line, inside, on.spells_label⟩, fun later other found defines => ?_⟩, final⟩
      -- A later definition would be a statement behind the last one of that label.
      by_contra beyond
      have after := Line.statementIndex_lt inside on.not_blank (Nat.lt_of_not_le beyond)
      exact final.2 _ after (labelled found defines)

section Control

variable {σ : Type} [Host σ] {library : Library} {pointer target : Nat} {position : Position}
  {store : Store}

theorem LastLabel.located (last : program.LastLabel name target) :
    (Plan.new library program).labels.locate ⟨name, position⟩ = .ok target :=
  (LabelTable.locate_eq_ok_iff program _ target).mpr last

theorem step_jump (found : program[pointer]? = some (.jump ⟨name, position⟩))
    (last : program.LastLabel name target) (host : σ) :
    Execution.step (.new library program) ⟨.running pointer, store⟩ host =
      (⟨.running target, store⟩, host) := by
  have present : (Plan.new library program).program[pointer]? = some (.jump ⟨name, position⟩) :=
    found
  rw [Execution.step_statement present]
  simp only [Statement.execute, Command.exec_bind, Command.exec_ofExcept, last.located]
  rfl

theorem step_branch {op : Comparison} {lhs rhs : Operand} {left right : Int64}
    (found : program[pointer]? = some (.branch op lhs rhs ⟨name, position⟩))
    (last : program.LastLabel name target) (first : store.evaluate lhs = .ok left)
    (second : store.evaluate rhs = .ok right) (holds : op.Holds left.toInt right.toInt)
    (host : σ) :
    Execution.step (.new library program) ⟨.running pointer, store⟩ host =
      (⟨.running target, store⟩, host) := by
  have present : (Plan.new library program).program[pointer]? =
      some (.branch op lhs rhs ⟨name, position⟩) := found
  rw [← Comparison.eval_eq_true_iff] at holds
  rw [Execution.step_statement present]
  simp only [Statement.execute, Command.evaluate, Command.exec_bind, Command.exec_check, first,
    second]
  rw [if_pos holds]
  simp only [Command.exec_bind, Command.exec_ofExcept, last.located]
  rfl

end Control

/-- A name that can be defined as a label and is no keyword can be jumped to. In a source that
defines it, the lines that jump to it are statements if all other lines are, and they lead to the
statement of the last line that defines it. -/
theorem labels_reachable {σ : Type} [Host σ] {file : String} {heading : List Token}
    {label : Token} (read : Token.readAll (":" ++ name) file = .ok heading)
    (member : label ∈ heading) (isLabel : label.kind = .label) (named : label.text = name)
    (free : ∀ keyword : Keyword, name ≠ keyword.spelling) (source : String)
    (accepted : ∀ line ∈ source.toList.splitOn '\n',
      Line.JumpsTo name line ∨ Accepted file line)
    (defined : ∃ line ∈ source.toList.splitOn '\n', Line.Defines name line) :
    let lines := source.toList.splitOn '\n'
    let index := Line.statementIndex lines
    ∃ tokens program last, Token.readAll source file = .ok tokens ∧
      ofTokens tokens = .ok program ∧ Line.LastDefinition lines name last ∧
      program[index last]? = some (.label name) ∧
      ∀ number line, lines[number]? = some line →
        (Line.Spells ["goto".toList, name.toList] line →
          ∃ position, program[index number]? = some (.jump ⟨name, position⟩) ∧
            ∀ (library : Library) (store : Store) (host : σ),
              Execution.step (.new library program) ⟨.running (index number), store⟩ host =
                (⟨.running (index last), store⟩, host)) ∧
        (∀ (op : Comparison) (lhs rhs : Operand.Term) (left right : List Char),
          Operand.Spelled lhs left → Operand.Spelled rhs right →
          Line.Spells
            ["if".toList, left, op.spelling.toList, right, "goto".toList, name.toList] line →
          ∃ first second position,
            program[index number]? = some (.branch op first second ⟨name, position⟩) ∧
            first.term = lhs ∧ second.term = rhs ∧
            ∀ (library : Library) (store : Store) (host : σ) (a b : Int64),
              store.evaluate first = .ok a → store.evaluate second = .ok b →
              op.Holds a.toInt b.toInt →
              Execution.step (.new library program) ⟨.running (index number), store⟩ host =
                (⟨.running (index last), store⟩, host)) := by
  intro lines index
  have isWord : Lexeme.IsWord name.toList := named ▸ Token.isWord_of_label read member isLabel
  have isName : Lexeme.IsName name := ⟨isWord, free⟩
  have stands : ∀ line ∈ lines, Line.Stands line := by
    intro line isLine
    -- A line that jumps is a statement because its name is no keyword.
    obtain jumps | alone := accepted line isLine
    · obtain ⟨statement, on⟩ := jumps.exists_on isName
      exact on.stands
    · exact (accepted_iff_stands_of_mem isLine file).mp alone
  obtain ⟨found, statements, lexemes, reads⟩ := exists_reads_of_stands
    ((Position.start file).after source.toList) (.start file) source.toList stands
  have lined : Lined lines (statements.toArray : Program).toList := lined_of_reads lexemes reads
  obtain ⟨last, final, lastLabel⟩ := lined.exists_lastDefinition isWord defined
  refine ⟨_, statements.toArray, last, (Token.readAll_eq_ok_iff _ _ _).mpr ⟨found, lexemes, rfl⟩,
    ofTokens_of_reads reads, final, lastLabel.1, fun number line inside => ⟨fun spells => ?_, ?_⟩⟩
  · obtain ⟨statement, on⟩ := (Line.JumpsTo.always spells).exists_on isName
    obtain ⟨statement, present, on⟩ := lined.exists_statement inside on.not_blank
    obtain ⟨position, rfl⟩ := on.jump_of_goto spells isName
    rw [Array.getElem?_toList] at present
    exact ⟨position, present, fun library store host => step_jump present lastLabel host⟩
  · intro op lhs rhs left right leftSpelled rightSpelled spells
    obtain ⟨statement, on⟩ :=
      (Line.JumpsTo.compared leftSpelled rightSpelled spells).exists_on isName
    obtain ⟨statement, present, on⟩ := lined.exists_statement inside on.not_blank
    obtain ⟨first, second, position, rfl, firstTerm, secondTerm⟩ :=
      on.branch_of_if leftSpelled rightSpelled spells isName
    rw [Array.getElem?_toList] at present
    exact ⟨first, second, position, present, firstTerm, secondTerm,
      fun library store host a b evaluated evaluated' holds =>
        step_branch present lastLabel evaluated evaluated' holds host⟩

theorem labels_reachable_loop :
    let source := ":loop\n  goto loop\nif n < n goto loop"
    let heading : Token := ⟨.label, "loop", 5, .start "<input>"⟩
    let lines := [":loop".toList, "  goto loop".toList, "if n < n goto loop".toList]
    Token.readAll (":" ++ "loop") "<input>" =
        .ok [heading, ⟨.endOfStatement, "", 0, ⟨"<input>", 1, 6, 5⟩⟩] ∧
      source.toList.splitOn '\n' = lines ∧
      (∀ line ∈ lines, Line.JumpsTo "loop" line ∨ Accepted "<input>" line) ∧
      Line.Defines "loop" ":loop".toList ∧
      ∃ tokens program last, Token.readAll source "<input>" = .ok tokens ∧
        ofTokens tokens = .ok program ∧ Line.LastDefinition lines "loop" last ∧
        ∃ position, program[1]? = some (.jump ⟨"loop", position⟩) ∧
          ∀ (store : Store) (world : World FileTable),
            Execution.step (.new .standard program) ⟨.running 1, store⟩ world =
              (⟨.running (Line.statementIndex lines last), store⟩, world) := by
  intro source heading lines
  have read : Token.readAll (":" ++ "loop") "<input>" =
      .ok [heading, ⟨.endOfStatement, "", 0, ⟨"<input>", 1, 6, 5⟩⟩] := by decide +kernel
  have free : ∀ keyword : Keyword, "loop" ≠ keyword.spelling := by
    rintro (_ | _ | _ | _) <;> decide
  have split : source.toList.splitOn '\n' = lines := by decide +kernel
  have defines : Line.Defines "loop" ":loop".toList :=
    Line.Spaced.single.spells
  have alone : Accepted "<input>" ":loop".toList := ⟨_, #[.label "loop"], read, by decide +kernel⟩
  have always : Line.Spells ["goto".toList, "loop".toList] "  goto loop".toList :=
    ⟨[' ', ' '], "goto loop".toList, [], rfl,
      Line.Spaced.single.apart _, List.all_eq_true.mp rfl, by simp⟩
  have isName : Lexeme.IsName "n" :=
    ⟨⟨_, _, rfl, rfl, List.all_eq_true.mp rfl⟩, by rintro (_ | _ | _ | _) <;> decide⟩
  have compared : Line.Spells ["if".toList, "n".toList, Comparison.lt.spelling.toList, "n".toList,
      "goto".toList, "loop".toList] "if n < n goto loop".toList :=
    (((((Line.Spaced.single.apart _).apart _).apart _).apart _).apart _).spells
  have accepted : ∀ line ∈ lines, Line.JumpsTo "loop" line ∨ Accepted "<input>" line := by
    rw [List.forall_mem_cons, List.forall_mem_cons, List.forall_mem_singleton]
    exact ⟨.inr alone, .inl (.always always),
      .inl (.compared (.variable isName) (.variable isName) compared)⟩
  obtain ⟨tokens, program, last, lexed, parsed, final, _, jumps⟩ :=
    @labels_reachable "loop" (World FileTable) _ "<input>" _ heading read (by simp) rfl rfl free
      source (split ▸ accepted) ⟨_, split ▸ List.mem_cons_self, defines⟩
  rw [split] at final jumps
  obtain ⟨position, present, steps⟩ := (jumps 1 _ rfl).1 always
  exact ⟨read, split, accepted, defines, tokens, program, last, lexed, parsed, final, position,
    present, fun store world => steps .standard store world⟩

/-- The name of a keyword can be defined as a label, but the line that would jump to it is no
statement. -/
theorem keyword_label_unreachable :
    let source := ":end\ngoto end"
    let heading : Token := ⟨.label, "end", 4, .start "<input>"⟩
    let lines := [":end".toList, "goto end".toList]
    Token.readAll (":" ++ "end") "<input>" =
        .ok [heading, ⟨.endOfStatement, "", 0, ⟨"<input>", 1, 5, 4⟩⟩] ∧
      source.toList.splitOn '\n' = lines ∧
      Line.Defines "end" ":end".toList ∧
      Line.Spells ["goto".toList, "end".toList] "goto end".toList ∧
      ∃ tokens, Token.readAll source "<input>" = .ok tokens ∧
        ofTokens tokens = .error ⟨⟨"<input>", 2, 1, 5⟩⟩ := by
  intro source heading lines
  let tokens : List Token := [heading, ⟨.endOfStatement, "", 1, ⟨"<input>", 1, 5, 4⟩⟩,
    ⟨.keyword .goto, "goto", 4, ⟨"<input>", 2, 1, 5⟩⟩,
    ⟨.keyword .halt, "end", 3, ⟨"<input>", 2, 6, 10⟩⟩,
    ⟨.endOfStatement, "", 0, ⟨"<input>", 2, 9, 13⟩⟩]
  have lexed : Token.readAll source "<input>" = .ok tokens := by decide +kernel
  have jump : Line.Spells ["goto".toList, "end".toList] "goto end".toList :=
    (Line.Spaced.single.apart _).spells
  exact ⟨by decide +kernel, by decide +kernel, Line.Spaced.single.spells, jump, tokens, lexed,
    by decide +kernel⟩

end Program

end LineScript
