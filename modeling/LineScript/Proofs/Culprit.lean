import LineScript.Proofs.Caret
import LineScript.Proofs.LayoutIndependence

/-!
What a diagnostic is about. Every place that an error carries is the place of a token, and the token
is the lexeme, the beginning of the statement, the operand or the name at fault. So the caret of a
message is under the first character of the culprit.
-/

namespace LineScript

namespace Statement

/-- The target of a jump or the name of a call, with its place. -/
def reference? : Statement → Option (String × Position)
  | .branch _ _ _ destination | .jump destination =>
      some (destination.label, destination.position)
  | .call name _ position => some (name, position)
  | .assign .. | .compute .. | .label _ | .halt => none

/-- A token of the statement that its errors can be about. -/
inductive Mentions (statement : Statement) (token : Token) : Prop
  | operand {operand : Operand} : operand ∈ statement.operands → operand.token = token →
      Mentions statement token
  | name : token.kind = .identifier →
      statement.reference? = some (token.text, token.position) → Mentions statement token

/-- The places that a statement keeps. -/
def places (statement : Statement) : List Position :=
  statement.operands.map Operand.position ++ (statement.reference?.map Prod.snd).toList

end Statement

theorem Operand.Written.token_eq {token : Token} {operand : Operand}
    (written : Operand.Written token operand) : operand.token = token := by
  cases written <;> rfl

theorem Operand.token_mem_of_written {tokens : List Token} {operands : List Operand}
    (written : List.Forall₂ Operand.Written tokens operands) :
    ∀ operand ∈ operands, operand.token ∈ tokens := by
  induction written with
  | nil => exact List.forall_mem_nil _
  | @cons token operand tokens operands first _ ih =>
      rw [List.forall_mem_cons]
      refine ⟨?_, fun other member => List.mem_cons_of_mem _ (ih other member)⟩
      rw [first.token_eq]
      exact List.mem_cons_self

namespace Statement

variable {shape : Shape} {content : List Token} {statement : Statement}

theorem Written.operand_mem (written : Written shape content statement) :
    ∀ operand ∈ statement.operands, operand.token ∈ content := by
  cases written with
  | assign _ _ value => simp [operands, value.token_eq]
  | compute _ _ left _ right => simp [operands, left.token_eq, right.token_eq]
  | branch _ left _ right _ _ => simp [operands, left.token_eq, right.token_eq]
  | label _ | jump _ _ | halt _ => exact List.forall_mem_nil _
  | call _ args =>
      intro operand member
      exact List.mem_cons_of_mem _ (Operand.token_mem_of_written args operand member)
  | keywordCall _ _ args =>
      intro operand member
      have inside := Operand.token_mem_of_written args operand member
      exact List.mem_cons_of_mem _ (List.mem_cons_of_mem _ inside)

theorem Written.reference_mem (written : Written shape content statement) {name : String}
    {position : Position} (refers : statement.reference? = some (name, position)) :
    ∃ token ∈ content, token.kind = .identifier ∧ token.text = name ∧
      token.position = position := by
  cases written with
  | assign _ _ _ | compute _ _ _ _ _ | label _ | halt _ => cases refers
  | @branch _ _ _ _ _ token _ _ _ _ _ _ _ _ kind | @jump _ token _ kind
  | @call token _ _ kind _ | @keywordCall _ token _ _ _ kind _ =>
      cases refers
      exact ⟨token, by simp, kind, rfl, rfl⟩

/-- Every place that a statement keeps is the place of a token on its line. -/
theorem Written.mentions (written : Written shape content statement) {position : Position}
    (kept : position ∈ statement.places) :
    ∃ token ∈ content, statement.Mentions token ∧ token.position = position := by
  rw [places, List.mem_append, List.mem_map] at kept
  obtain ⟨operand, member, rfl⟩ | referred := kept
  · exact ⟨operand.token, written.operand_mem operand member, .operand member rfl, rfl⟩
  · rw [Option.mem_toList, Option.map_eq_some_iff] at referred
    obtain ⟨⟨name, _⟩, refers, rfl⟩ := referred
    obtain ⟨token, member, kind, rfl, same⟩ := written.reference_mem refers
    rw [← same] at refers
    exact ⟨token, member, .name kind refers, same⟩

theorem alike_of_places {R : Position → Position → Prop}
    (related : ∀ position ∈ statement.places, R position position) :
    Statement.Alike R statement statement := by
  have operand {operand : Operand} (member : operand ∈ statement.operands) :
      Operand.Alike R operand operand :=
    ⟨rfl, rfl, related _ (List.mem_append_left _ (List.mem_map_of_mem member))⟩
  have reference {name : String} {position : Position}
      (refers : statement.reference? = some (name, position)) : R position position :=
    related _ (List.mem_append_right _ (by simp [refers]))
  cases statement with
  | assign target value => exact .assign (operand List.mem_cons_self)
  | compute target op lhs rhs =>
      exact .compute (operand List.mem_cons_self) (operand (by simp [operands]))
  | branch op lhs rhs destination =>
      exact .branch (operand List.mem_cons_self) (operand (by simp [operands]))
        ⟨rfl, reference rfl⟩
  | label name => exact .label name
  | jump destination => exact .jump ⟨rfl, reference rfl⟩
  | halt => exact .halt
  | call name args position =>
      exact .call (List.forall₂_same.mpr fun _ member => operand member) (reference rfl)

/-- An error of a statement is at one of the places that it keeps. -/
theorem position_mem_places {σ : Type} [Host σ] {plan : Plan}
    (calls : statement.CallsStandard plan.library) {store : Store} {host : σ} {error : RunError}
    (failed : ((statement.execute plan).exec store host).1.1 = .error error) :
    error.position ∈ statement.places := by
  have itself : Statement.Alike (fun position _ => position ∈ statement.places) statement
      statement := alike_of_places fun _ member => member
  have done := execute_alike rfl rfl itself calls calls store host
  generalize (statement.execute plan).exec store host = result at done failed
  cases done with
  | intro matched store host =>
      cases matched with
      | ok _ => cases failed
      | error fault place =>
          cases failed
          exact place

end Statement

theorem Command.position_of_flush {σ : Type} [Host σ] {position : Position} {store : Store}
    {host : σ} {error : RunError}
    (failed : ((Command.flush position).exec store host).1.1 = .error error) :
    error.position = position := by
  rw [Command.exec_flush] at failed
  generalize Host.answer Request.flush host = answered at failed
  obtain ⟨reason | _, after⟩ := answered
  · cases failed
    rfl
  · cases failed

/-- The place that stands for the end of a program is one that a statement keeps, if any keeps
one. -/
theorem Program.lastPosition_cases (program : Program) :
    (∃ statement ∈ program, program.lastPosition ∈ statement.places) ∨
      program.lastPosition = .start "<program>" := by
  let kept (position _ : Position) : Prop :=
    (∃ statement ∈ program, position ∈ statement.places) ∨ position = .start "<program>"
  have itself : Program.Alike kept program program := by
    refine List.forall₂_same.mpr fun statement member => Statement.alike_of_places ?_
    exact fun _ place => .inl ⟨statement, Array.mem_toList_iff.mp member, place⟩
  exact Program.lastPosition_alike itself (.inr rfl)

theorem Line.Reads.exists_line {lines : List (List Token)} {found : List Statement}
    (reads : Reads lines found) {statement : Statement} (member : statement ∈ found) :
    ∃ line ∈ lines, ∃ shape, Holds shape line statement := by
  rw [Reads] at reads
  obtain ⟨index, inside, rfl⟩ := List.getElem_of_mem member
  have onLine : index < (lines.filter fun line => !isBare line).length :=
    reads.length_eq ▸ inside
  exact ⟨_, List.mem_of_mem_filter (List.getElem_mem onLine), reads.get onLine inside⟩

/-- Every place that a statement of a program keeps is that of a token that it was read from. -/
theorem Program.exists_mentioned {tokens : List Token} {program : Program}
    (parsed : ofTokens tokens = .ok program) {statement : Statement}
    (member : statement ∈ program) {position : Position} (kept : position ∈ statement.places) :
    ∃ token ∈ tokens, token.kind ≠ .endOfStatement ∧ statement.Mentions token ∧
      token.position = position := by
  obtain ⟨other, reads, read⟩ | ⟨_, _, read⟩ := ofTokens_lines tokens
  · obtain rfl : other = program := Except.ok.inj (read.symm.trans parsed)
    obtain ⟨line, inside, shape, content, stop, rfl, _, written⟩ :=
      reads.exists_line (Array.mem_toList_iff.mpr member)
    obtain ⟨token, onLine, mentions, place⟩ := written.mentions kept
    have listed := Line.mem_of_mem_cut inside (List.mem_append_left [stop] onLine)
    exact ⟨token, listed, written.inLine token onLine, mentions, place⟩
  · cases read.symm.trans parsed

theorem Program.exists_misfit {tokens : List Token} {error : InvalidStatement}
    (failed : ofTokens tokens = .error error) :
    ∃ before first line after, Line.cut tokens = before ++ (first :: line) :: after ∧
      (∀ earlier ∈ before, Line.Fits earlier) ∧ ¬ Line.Fits (first :: line) ∧ first ∈ tokens ∧
      first.kind ≠ .endOfStatement ∧ error = ⟨first.position⟩ := by
  obtain ⟨_, _, read⟩ | ⟨position, fails, read⟩ := ofTokens_lines tokens
  · cases read.symm.trans failed
  · obtain rfl : error = ⟨position⟩ := Except.error.inj (failed.symm.trans read)
    obtain ⟨before, line, after, first, split, earlier, misfit, head, rfl⟩ := fails
    obtain ⟨line, rfl⟩ := List.head?_eq_some_iff.mp head
    have isLine : first :: line ∈ Line.cut tokens := by simp [split]
    refine ⟨before, first, line, after, split, earlier, misfit,
      Line.mem_of_mem_cut isLine List.mem_cons_self, fun ends => ?_, rfl⟩
    exact misfit (.inl (Line.isBare_of_mem_cut isLine head ends))

/-- The token is a lexeme within its line, and the source from the place on begins with it. -/
def Token.StandsAt (token : Token) (position : Position) (rest : List Char) : Prop :=
  token.kind ≠ .endOfStatement ∧ ∃ lexeme remaining, rest = lexeme.spelling ++ remaining ∧
    Lexeme.Next rest (.ok lexeme) ∧ token = ofLexeme position lexeme

/-- What a diagnostic of a run is about, with the source from its place on: the lexeme at fault, the
first token of the first line that is no statement, a token of the statement that failed, or, when
the output cannot be flushed at the end, a token of some statement. -/
inductive Diagnostic.About {σ : Type} [Host σ] (source file : String) (options : RunOptions)
    (host : σ) (rest : List Char) : Diagnostic → Prop
  | lexeme {error : LexicalError} : Token.readAll source file = .error error →
      Lexeme.Next rest (.error error.fault) →
      About source file options host rest (.ofLexicalError error)
  | statement {tokens : List Token} {before after : List (List Token)} {line : List Token}
      {first : Token} : Token.readAll source file = .ok tokens →
      Line.cut tokens = before ++ (first :: line) :: after →
      (∀ earlier ∈ before, Line.Fits earlier) → ¬ Line.Fits (first :: line) →
      first.StandsAt first.position rest →
      About source file options host rest (.ofInvalidStatement ⟨first.position⟩)
  | execution {tokens : List Token} {program : Program} {steps pointer : Nat}
      {statement : Statement} {store : Store} {ready : σ} {error : RunError} {token : Token} :
      Token.readAll source file = .ok tokens → Program.ofTokens tokens = .ok program →
      (Plan.new .standard program).run (.new options.memory) host steps =
        (⟨.running pointer, store⟩, ready) →
      program[pointer]? = some statement →
      ((statement.execute (.new .standard program)).exec store ready).1.1 = .error error →
      token ∈ tokens → statement.Mentions token → token.StandsAt error.position rest →
      About source file options host rest (.ofRunError error)
  | flush {tokens : List Token} {program : Program} {steps : Nat} {ending : Ending}
      {statement : Statement} {store : Store} {ready : σ} {error : RunError} {token : Token} :
      Token.readAll source file = .ok tokens → Program.ofTokens tokens = .ok program →
      (Plan.new .standard program).run (.new options.memory) host steps =
        (⟨.closing (.ok ending), store⟩, ready) →
      ((Command.flush program.lastPosition).exec store ready).1.1 = .error error →
      statement ∈ program → token ∈ tokens → statement.Mentions token →
      token.StandsAt error.position rest → About source file options host rest (.ofRunError error)

theorem Lexeme.Next.head {rest : List Char} {outcome : Except LexicalFault Lexeme}
    (next : Next rest outcome)
    (inLine : ∀ lexeme, outcome = .ok lexeme → lexeme.kind ≠ .endOfStatement) :
    ∃ c after, rest = c :: after ∧ c ≠ '\n' ∧ c ≠ '\r' := by
  cases rest with
  | nil => exact absurd next (not_next_nil outcome)
  | cons c after =>
      refine ⟨c, after, rfl, ?_, ?_⟩
      · rintro rfl
        exact inLine _ (next.unique .newline) rfl
      · rintro rfl
        exact absurd next.solid (by decide)

theorem Token.StandsAt.head {token : Token} {position : Position} {rest : List Char}
    (stands : token.StandsAt position rest) :
    ∃ c after, rest = c :: after ∧ c ≠ '\n' ∧ c ≠ '\r' := by
  obtain ⟨inLine, lexeme, remaining, _, next, rfl⟩ := stands
  refine next.head fun other same => ?_
  cases same
  exact inLine

theorem Token.exists_standsAt {source file : String} {tokens : List Token}
    (read : readAll source file = .ok tokens) {token : Token} (member : token ∈ tokens)
    (inLine : token.kind ≠ .endOfStatement) :
    ∃ before rest, source.toList = before ++ rest ∧ token.position = .behind file before ∧
      token.StandsAt token.position rest := by
  obtain ⟨found, lexemes, rfl⟩ := (readAll_eq_ok_iff source file tokens).mp read
  obtain real | rfl := mem_of_mem_close member
  · obtain ⟨before, lexeme, after, split, next, rfl⟩ := lexemes.placed token real
    exact ⟨before, lexeme.spelling ++ after, split, Position.start_after file before, inLine,
      lexeme, after, rfl, next, rfl⟩
  · exact absurd rfl inLine

/-- Where a statement has a place, the source has one of its tokens. -/
theorem Program.exists_culprit {source file : String} {tokens : List Token} {program : Program}
    (read : Token.readAll source file = .ok tokens) (parsed : ofTokens tokens = .ok program)
    {statement : Statement} (member : statement ∈ program) {position : Position}
    (kept : position ∈ statement.places) :
    ∃ token ∈ tokens, statement.Mentions token ∧
      ∃ before rest, source.toList = before ++ rest ∧ position = .behind file before ∧
        token.StandsAt position rest := by
  obtain ⟨token, listed, inLine, mentions, rfl⟩ := exists_mentioned parsed member kept
  exact ⟨token, listed, mentions, Token.exists_standsAt read listed inLine⟩

section RunSource

variable {σ : Type} [Host σ] {fuel : Nat} {source file : String} {options : RunOptions} {host : σ}
  {diagnostic : Diagnostic}

theorem Diagnostic.About.head {rest : List Char}
    (about : Diagnostic.About source file options host rest diagnostic) :
    ∃ c after, rest = c :: after ∧ c ≠ '\n' ∧ c ≠ '\r' := by
  cases about with
  | lexeme _ next => exact next.head nofun
  | statement _ _ _ _ stands => exact stands.head
  | execution _ _ _ _ _ _ _ stands => exact stands.head
  | flush _ _ _ _ _ _ _ stands => exact stands.head

theorem exists_about_run {tokens : List Token} {program : Program} {error : RunError}
    (read : Token.readAll source file = .ok tokens) (parsed : Program.ofTokens tokens = .ok program)
    (failed : ((Plan.new .standard program).run (.new options.memory) host fuel).1.outcome? =
      some (.error error))
    (placed : error.position ≠ .start "<program>") :
    ∃ before rest, source.toList = before ++ rest ∧ error.position = .behind file before ∧
      (Diagnostic.ofRunError error).About source file options host rest := by
  obtain ⟨steps, fails⟩ := Plan.fails_of_outcome? failed
  rcases reached : (Plan.new .standard program).run (.new options.memory) host steps with
    ⟨execution, ready⟩
  rw [reached] at fails
  cases fails with
  | statement present fails =>
      have member := Array.mem_of_getElem? present
      have kept := Statement.position_mem_places (Plan.callsStandard_new program _ member) fails
      obtain ⟨token, listed, mentions, before, rest, split, place, stands⟩ :=
        Program.exists_culprit read parsed member kept
      exact ⟨before, rest, split, place,
        .execution read parsed reached present fails listed mentions stands⟩
  | flush fails =>
      have last : error.position = program.lastPosition := Command.position_of_flush fails
      obtain ⟨statement, member, kept⟩ | fallback := program.lastPosition_cases
      · rw [← last] at kept
        obtain ⟨token, listed, mentions, before, rest, split, place, stands⟩ :=
          Program.exists_culprit read parsed member kept
        exact ⟨before, rest, split, place,
          .flush read parsed reached fails member listed mentions stands⟩
      · exact absurd (last.trans fallback) placed

/-- A diagnostic has its place in the source, and what it is about stands there. -/
theorem exists_about
    (failed : (runSource fuel source file options host).1 = some (.error diagnostic))
    (placed : diagnostic.position ≠ .start "<program>") :
    ∃ before rest, source.toList = before ++ rest ∧ diagnostic.position = .behind file before ∧
      diagnostic.About source file options host rest := by
  cases read : Token.readAll source file with
  | error error =>
      rw [runSource_of_faulty read] at failed
      cases failed
      obtain ⟨tokens, divided⟩ := Token.divided_of_readAll read
      obtain ⟨before, rest, split, place, next, _⟩ := divided.before_fault
      rw [Position.start_after] at place
      exact ⟨before, rest, split, place, .lexeme read next⟩
  | ok tokens =>
      cases parsed : Program.ofTokens tokens with
      | error error =>
          rw [runSource_of_refused read parsed] at failed
          cases failed
          obtain ⟨earlier, first, line, later, lines, fits, misfit, listed, inLine, rfl⟩ :=
            Program.exists_misfit parsed
          obtain ⟨before, rest, split, place, stands⟩ := Token.exists_standsAt read listed inLine
          exact ⟨before, rest, split, place, .statement read lines fits misfit stands⟩
      | ok program =>
          rw [runSource_of_program read parsed] at failed
          obtain ⟨outcome, ended, diagnosed⟩ := Option.map_eq_some_iff.mp failed
          cases outcome with
          | ok _ => cases diagnosed
          | error error =>
              cases diagnosed
              exact exists_about_run read parsed ended placed

/-- The caret points at the culprit. -/
theorem runSource_caret
    (failed : (runSource fuel source file options host).1 = some (.error diagnostic))
    (placed : diagnostic.position ≠ .start "<program>") :
    ∃ before c after line echoed padding, source.toList = before ++ c :: after ∧
      diagnostic.position = .behind file before ∧ diagnostic.Echoes source line echoed padding ∧
      echoed[diagnostic.position.column - 1]? = some c ∧
      diagnostic.About source file options host (c :: after) := by
  obtain ⟨before, rest, split, place, about⟩ := exists_about failed placed
  obtain ⟨c, after, rfl, inLine, visible⟩ := about.head
  obtain ⟨line, echoed, padding, echoes, above⟩ :=
    Diagnostic.echoes_of_behind split place inLine visible
  exact ⟨before, c, after, line, echoed, padding, split, place, echoes, above, about⟩

end RunSource

theorem runSource_caret_undefined :
    let source := "x = 1\n\tdebug \"é\" y\r\n"
    let world := World.quiet [] FileTable.empty
    let diagnostic := Diagnostic.ofRunError ⟨.undefinedVariable "y", ⟨"<input>", 2, 12, 18⟩⟩
    (runSource 3 source "<input>" .default world).1 = some (.error diagnostic) ∧
      diagnostic.position ≠ .start "<program>" ∧
      ∃ before c after line echoed padding, source.toList = before ++ c :: after ∧
        diagnostic.position = .behind "<input>" before ∧
        diagnostic.Echoes source line echoed padding ∧
        echoed[diagnostic.position.column - 1]? = some c ∧
        diagnostic.About source "<input>" .default world (c :: after) := by
  intro source world diagnostic
  have failed : (runSource 3 source "<input>" .default world).1 = some (.error diagnostic) := by
    decide +kernel
  have placed : diagnostic.position ≠ .start "<program>" := by decide
  exact ⟨failed, placed, runSource_caret failed placed⟩

end LineScript
