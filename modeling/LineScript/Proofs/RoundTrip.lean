import LineScript.Proofs.Reading
import LineScript.Proofs.Recognition
import LineScript.Proofs.Spelling

/-!
The round trip through source text. In whichever way statements are written, they read back, up to
the places and lengths of their tokens.
-/

namespace LineScript

/-- The token that a term is read from, at no place. -/
def Operand.Term.token : Operand.Term → Token
  | .integer value => ⟨.integer, Numeral.ofWord value, 0, .start ""⟩
  | .text content => ⟨.text, content, 0, .start ""⟩
  | .variable name => ⟨.identifier, name, 0, .start ""⟩

namespace Operand

/-- The operand with the place and the length of its token left out. -/
def unplaced (operand : Operand) : Operand :=
  ⟨operand.term, ⟨operand.token.kind, operand.token.text, 0, .start ""⟩⟩

/-- The operand with the token that its term is read from. -/
def canonical (operand : Operand) : Operand :=
  ⟨operand.term, operand.term.token⟩

end Operand

namespace Statement

/-- The statement with other operands and without its places. -/
def rewrite (change : Operand → Operand) : Statement → Statement
  | .assign target value => .assign target (change value)
  | .compute target op lhs rhs => .compute target op (change lhs) (change rhs)
  | .branch op lhs rhs destination =>
      .branch op (change lhs) (change rhs) ⟨destination.label, .start ""⟩
  | .label name => .label name
  | .jump destination => .jump ⟨destination.label, .start ""⟩
  | .halt => .halt
  | .call name args _ => .call name (args.map change) (.start "")

/-- The statement without places and token lengths. -/
def unplaced : Statement → Statement :=
  rewrite Operand.unplaced

/-- The statement without places, and with the tokens that its operands are read from. -/
def canonical : Statement → Statement :=
  rewrite Operand.canonical

end Statement

namespace Lexeme

def ofName (name : String) : Lexeme :=
  ⟨.identifier, name, name.toList⟩

def ofKeyword (keyword : Keyword) : Lexeme :=
  ⟨.keyword keyword, keyword.spelling, keyword.spelling.toList⟩

def ofLabel (name : String) : Lexeme :=
  ⟨.label, name, ':' :: name.toList⟩

def ofOperator (spelling : String) (kind : Token.Kind) : Lexeme :=
  ⟨kind, spelling, spelling.toList⟩

theorem written_word {word : String} (isWord : IsWord word.toList) :
    Written ⟨wordKind word, word, word.toList⟩ := by
  have written := Written.word isWord
  rwa [String.ofList_toList] at written

theorem wordKind_keyword (keyword : Keyword) : wordKind keyword.spelling = .keyword keyword := by
  cases keyword <;> decide

theorem wordKind_name {name : String} (isName : IsName name) : wordKind name = .identifier := by
  have none : Keyword.all.find? (fun keyword => keyword.spelling = name) = none := by
    rw [List.find?_eq_none]
    intro keyword _
    simpa using (isName.2 keyword).symm
  rw [wordKind, none]

theorem written_name {name : String} (isName : IsName name) : (ofName name).Written := by
  have written := written_word isName.1
  rwa [wordKind_name isName] at written

theorem written_keyword (keyword : Keyword) : (ofKeyword keyword).Written := by
  have isWord : IsWord keyword.spelling.toList := by
    cases keyword <;> exact ⟨_, _, rfl, by decide, List.all_eq_true.mp rfl⟩
  have written := written_word isWord
  rwa [wordKind_keyword] at written

theorem written_label {name : String} (isWord : IsWord name.toList) : (ofLabel name).Written := by
  have written := Written.label isWord
  rwa [String.ofList_toList] at written

theorem written_assign : (ofOperator "=" .assign).Written :=
  .operator ((mem_operators_iff _ _).mpr (.inr (.inl ⟨rfl, rfl⟩)))

theorem written_arithmetic (op : Arithmetic) : (ofOperator op.spelling (.arithmetic op)).Written :=
  .operator ((mem_operators_iff _ _).mpr (.inr (.inr ⟨op, rfl, rfl⟩)))

theorem written_comparison (op : Comparison) : (ofOperator op.spelling (.comparison op)).Written :=
  .operator ((mem_operators_iff _ _).mpr (.inl ⟨op, rfl, rfl⟩))

end Lexeme

/-- The token is the lexeme's, wherever it stands. -/
def Token.Of (lexeme : Lexeme) (token : Token) : Prop :=
  ∃ position, token = ofLexeme position lexeme

/-- Each way to write an operand is a lexeme whose tokens write it. -/
theorem Operand.Spelled.lexeme {operand : Operand} {source : List Char}
    (spelled : Operand.Spelled operand.term source) :
    ∃ lexeme : Lexeme, lexeme.Written ∧ lexeme.spelling = source ∧
      ∀ token, Token.Of lexeme token →
        ∃ found, Operand.Written token found ∧ found.unplaced = operand.canonical := by
  obtain ⟨term, token⟩ := operand
  change Operand.Spelled term source at spelled
  cases spelled with
  | @integer value magnitude numeral literal same =>
      have fits : magnitude ≤ Int64.maxValue.toNatClampNeg := by
        have high := value.toInt_lt
        have largest : Int64.maxValue.toNatClampNeg = 2 ^ 63 - 1 := by decide
        omega
      refine ⟨_, .integer literal fits, rfl, ?_⟩
      rintro _ ⟨position, rfl⟩
      have decimal : Numeral.Decimal (Numeral.ofNat magnitude).toList value.toInt := by
        rw [same]
        exact Numeral.decimal_ofNat magnitude
      refine ⟨_, .integer rfl decimal, ?_⟩
      simp only [unplaced, canonical, Term.token, Numeral.ofWord, same]
      rfl
  | text quoted =>
      refine ⟨_, .text quoted, rfl, ?_⟩
      rintro _ ⟨position, rfl⟩
      exact ⟨_, .text rfl, rfl⟩
  | «variable» isName =>
      refine ⟨_, Lexeme.written_name isName, rfl, ?_⟩
      rintro _ ⟨position, rfl⟩
      exact ⟨_, .variable rfl, rfl⟩

theorem Operand.spelled_lexemes {args : List Operand} {sources : List (List Char)}
    (spelled : List.Forall₂ (fun operand source => Operand.Spelled operand.term source) args
      sources) :
    ∃ lexemes : List Lexeme, (∀ lexeme ∈ lexemes, lexeme.Written) ∧
      lexemes.map Lexeme.spelling = sources ∧
      ∀ tokens, List.Forall₂ Token.Of lexemes tokens →
        ∃ found, List.Forall₂ Operand.Written tokens found ∧
          found.map Operand.unplaced = args.map Operand.canonical := by
  induction spelled with
  | nil =>
      refine ⟨[], nofun, rfl, fun tokens same => ?_⟩
      cases same
      exact ⟨[], .nil, rfl⟩
  | cons first _ ih =>
      obtain ⟨lexeme, written, spelling, reads⟩ := first.lexeme
      obtain ⟨lexemes, allWritten, spellings, readsAll⟩ := ih
      refine ⟨lexeme :: lexemes, List.forall_mem_cons.mpr ⟨written, allWritten⟩, ?_, ?_⟩
      · rw [List.map_cons, spelling, spellings]
      · intro tokens same
        obtain _ | ⟨here, later⟩ := same
        obtain ⟨operand, operandWritten, operandSame⟩ := reads _ here
        obtain ⟨others, othersWritten, othersSame⟩ := readsAll _ later
        refine ⟨operand :: others, .cons operandWritten othersWritten, ?_⟩
        rw [List.map_cons, List.map_cons, operandSame, othersSame]

/-- Each way to write a statement is a list of lexemes whose tokens write it. -/
theorem Statement.Spelled.lexemes {statement : Statement} {words : List (List Char)}
    (spelled : statement.Spelled words) :
    ∃ lexemes : List Lexeme, (∀ lexeme ∈ lexemes, lexeme.Written) ∧
      lexemes.map Lexeme.spelling = words ∧
      ∀ tokens, List.Forall₂ Token.Of lexemes tokens →
        ∃ shape found, Statement.Written shape tokens found ∧
          found.unplaced = statement.canonical := by
  cases spelled with
  | @assign target value source isName spelled =>
      obtain ⟨lexeme, written, rfl, reads⟩ := spelled.lexeme
      refine ⟨[.ofName target, .ofOperator "=" .assign, lexeme], ?_, rfl, ?_⟩
      · simp [Lexeme.written_name isName, Lexeme.written_assign, written]
      · rintro _ (_ | ⟨⟨_, rfl⟩, _ | ⟨⟨_, rfl⟩, _ | ⟨here, _ | _⟩⟩⟩)
        obtain ⟨found, foundWritten, same⟩ := reads _ here
        exact ⟨_, _, .assign rfl rfl foundWritten, congrArg (Statement.assign target) same⟩
  | @compute target op lhs rhs left right isName leftSpelled rightSpelled =>
      obtain ⟨leftLexeme, leftWritten, rfl, readsLeft⟩ := leftSpelled.lexeme
      obtain ⟨rightLexeme, rightWritten, rfl, readsRight⟩ := rightSpelled.lexeme
      refine ⟨[.ofName target, .ofOperator "=" .assign, leftLexeme,
        .ofOperator op.spelling (.arithmetic op), rightLexeme], ?_, rfl, ?_⟩
      · simp [Lexeme.written_name isName, Lexeme.written_assign, leftWritten,
          Lexeme.written_arithmetic, rightWritten]
      · rintro _ (_ | ⟨⟨_, rfl⟩, _ | ⟨⟨_, rfl⟩, _ | ⟨here, _ | ⟨⟨_, rfl⟩, _ | ⟨there, _ | _⟩⟩⟩⟩⟩)
        obtain ⟨lhs', lhsWritten, lhsSame⟩ := readsLeft _ here
        obtain ⟨rhs', rhsWritten, rhsSame⟩ := readsRight _ there
        exact ⟨_, _, .compute rfl rfl lhsWritten rfl rhsWritten,
          congrArg₂ (Statement.compute target op) lhsSame rhsSame⟩
  | @branch op lhs rhs left right destination leftSpelled rightSpelled isName =>
      obtain ⟨leftLexeme, leftWritten, rfl, readsLeft⟩ := leftSpelled.lexeme
      obtain ⟨rightLexeme, rightWritten, rfl, readsRight⟩ := rightSpelled.lexeme
      refine ⟨[.ofKeyword .conditional, leftLexeme, .ofOperator op.spelling (.comparison op),
        rightLexeme, .ofKeyword .goto, .ofName destination.label], ?_, rfl, ?_⟩
      · simp [Lexeme.written_keyword, leftWritten, Lexeme.written_comparison, rightWritten,
          Lexeme.written_name isName]
      · rintro _ (_ | ⟨⟨_, rfl⟩, _ | ⟨here, _ | ⟨⟨_, rfl⟩, _ | ⟨there, _ | ⟨⟨_, rfl⟩,
          _ | ⟨⟨_, rfl⟩, _ | _⟩⟩⟩⟩⟩⟩)
        obtain ⟨lhs', lhsWritten, lhsSame⟩ := readsLeft _ here
        obtain ⟨rhs', rhsWritten, rhsSame⟩ := readsRight _ there
        exact ⟨_, _, .branch rfl lhsWritten rfl rhsWritten rfl rfl,
          congrArg₂ (fun lhs rhs => Statement.branch op lhs rhs ⟨destination.label, .start ""⟩)
            lhsSame rhsSame⟩
  | @label name isWord =>
      refine ⟨[.ofLabel name], ?_, rfl, ?_⟩
      · simp [Lexeme.written_label isWord]
      · rintro _ (_ | ⟨⟨_, rfl⟩, _ | _⟩)
        exact ⟨_, _, .label rfl, rfl⟩
  | @jump destination isName =>
      refine ⟨[.ofKeyword .goto, .ofName destination.label], ?_, rfl, ?_⟩
      · simp [Lexeme.written_keyword, Lexeme.written_name isName]
      · rintro _ (_ | ⟨⟨_, rfl⟩, _ | ⟨⟨_, rfl⟩, _ | _⟩⟩)
        exact ⟨_, _, .jump rfl rfl, rfl⟩
  | halt =>
      refine ⟨[.ofKeyword .halt], ?_, rfl, ?_⟩
      · simp [Lexeme.written_keyword]
      · rintro _ (_ | ⟨⟨_, rfl⟩, _ | _⟩)
        exact ⟨_, _, .halt rfl, rfl⟩
  | @call name args operands position isName spelled =>
      obtain ⟨lexemes, written, rfl, reads⟩ := Operand.spelled_lexemes spelled
      refine ⟨.ofName name :: lexemes, ?_, rfl, ?_⟩
      · exact List.forall_mem_cons.mpr ⟨Lexeme.written_name isName, written⟩
      · rintro _ (_ | ⟨⟨_, rfl⟩, rest⟩)
        obtain ⟨found, foundWritten, same⟩ := reads _ rest
        exact ⟨_, _, .call rfl foundWritten,
          congrArg (fun args => Statement.call name args (.start "")) same⟩
  | @keywordCall name args operands position isName spelled =>
      obtain ⟨lexemes, written, rfl, reads⟩ := Operand.spelled_lexemes spelled
      refine ⟨.ofKeyword .call :: .ofName name :: lexemes, ?_, rfl, ?_⟩
      · simp only [List.forall_mem_cons]
        exact ⟨Lexeme.written_keyword .call, Lexeme.written_name isName, written⟩
      · rintro _ (_ | ⟨⟨_, rfl⟩, _ | ⟨⟨_, rfl⟩, rest⟩⟩)
        obtain ⟨found, foundWritten, same⟩ := reads _ rest
        exact ⟨_, _, .keywordCall rfl rfl foundWritten,
          congrArg (fun args => Statement.call name args (.start "")) same⟩

/-- A line is read word by word, whatever follows it that goes on with no lexeme. -/
theorem Line.Spaced.read {words : List (List Char)} {line : List Char} (spaced : Spaced words line)
    {lexemes : List Lexeme} (spellings : lexemes.map Lexeme.spelling = words)
    (written : ∀ lexeme ∈ lexemes, lexeme.Written) {following : List Char}
    (closed : ∀ lexeme : Lexeme, lexeme.Closed following) {position : Position}
    {later : List Token} (read : Token.Read (position.after line) following later) :
    ∃ tokens, List.Forall₂ Token.Of lexemes tokens ∧
      Token.Read position (line ++ following) (tokens ++ later) := by
  induction spaced generalizing lexemes position with
  | single =>
      obtain ⟨lexeme, rfl, rfl⟩ := List.map_eq_singleton_iff.mp spellings
      have first := written lexeme List.mem_cons_self
      exact ⟨[.ofLexeme position lexeme], .cons ⟨position, rfl⟩ .nil,
        .lexeme first (closed lexeme) read⟩
  | @cons word gap line words nonempty blank _ ih =>
      obtain ⟨lexeme, others, rfl, rfl, rest⟩ := List.map_eq_cons_iff.mp spellings
      rw [List.forall_mem_cons] at written
      rw [Position.after_append, Position.after_append] at read
      obtain ⟨tokens, same, onward⟩ := ih rest written.2 read
      have ends : lexeme.Closed (gap ++ (line ++ following)) := by
        obtain ⟨c, gap, rfl⟩ := List.exists_cons_of_ne_nil nonempty
        exact Lexeme.closed_of_break (.inr (blank c List.mem_cons_self)) lexeme _
      refine ⟨.ofLexeme position lexeme :: tokens, .cons ⟨position, rfl⟩ same, ?_⟩
      rw [List.append_assoc, List.append_assoc]
      exact .lexeme written.1 ends (.blanks blank onward)

/-- By the lines of the source, from the last to the first. -/
theorem Program.Spelled.read {statements : List Statement} {source : List Char}
    (spelled : Spelled statements source) (position : Position) :
    ∃ tokens found, Token.Read position source tokens ∧
      (∀ theEnd, Line.Reads (Line.cut (Token.close tokens theEnd)) found) ∧
      found.map Statement.unplaced = statements.map Statement.canonical := by
  induction spelled generalizing position with
  | nil => exact ⟨[], [], .nil, fun _ => .nil, rfl⟩
  | @last statement words line spelled spaced =>
      obtain ⟨lexemes, written, spellings, writes⟩ := spelled.lexemes
      have ended : Token.Read (position.after line) [] [] := .nil
      obtain ⟨tokens, same, read⟩ := spaced.read spellings written Lexeme.closed_nil ended
      obtain ⟨shape, found, foundWritten, foundSame⟩ := writes tokens same
      rw [List.append_nil, List.append_nil] at read
      refine ⟨tokens, [found], read, fun theEnd => ?_, congrArg (fun found => [found]) foundSame⟩
      rw [Token.close_inLine foundWritten.ne_nil foundWritten.inLine,
        Line.cut_append foundWritten.inLine rfl]
      exact Line.Reads.cons .nil ⟨tokens, _, rfl, rfl, foundWritten⟩
  | @cons statement words line source statements spelled spaced _ ih =>
      obtain ⟨lexemes, written, spellings, writes⟩ := spelled.lexemes
      obtain ⟨later, others, onward, reads, othersSame⟩ := ih ((position.after line).after ['\n'])
      obtain ⟨tokens, same, read⟩ := spaced.read spellings written
        (Lexeme.closed_of_break (.inl rfl) · source)
        (Token.Read.lexeme .newline trivial onward)
      obtain ⟨shape, found, foundWritten, foundSame⟩ := writes tokens same
      refine ⟨_, found :: others, read, fun theEnd => ?_, ?_⟩
      · rw [Token.close_append rfl, Line.cut_append foundWritten.inLine rfl]
        exact Line.Reads.cons (reads theEnd) ⟨tokens, _, rfl, rfl, foundWritten⟩
      · rw [List.map_cons, List.map_cons, foundSame, othersSame]

/-- Statements read back from every way to write them, with the tokens that their operands are read
from, and without regard to places and token lengths. -/
theorem Program.ofTokens_spelled {statements : List Statement} {source : String}
    (spelled : Spelled statements source.toList) (file : String) :
    ∃ tokens program, Token.readAll source file = .ok tokens ∧ ofTokens tokens = .ok program ∧
      program.toList.map Statement.unplaced = statements.map Statement.canonical := by
  obtain ⟨tokens, found, read, reads, same⟩ := spelled.read (.start file)
  exact ⟨_, found.toArray, (Token.readAll_eq_ok_iff _ _ _).mpr ⟨tokens, read, rfl⟩,
    ofTokens_of_reads (reads _), same⟩

theorem Program.ofTokens_spelled_keywords :
    let source := ":if\nn \t= 0x00fF\ncall say  \"\\\\é\\0\" n"
    let number : Operand := ⟨.integer 255, Operand.Term.token (.integer 255)⟩
    let text : Operand := ⟨.text "\\é\x00", Operand.Term.token (.text "\\é\x00")⟩
    let name : Operand := ⟨.variable "n", Operand.Term.token (.variable "n")⟩
    let statements : List Statement :=
      [.label "if", .assign "n" number, .call "say" [text, name] (.start "")]
    Program.Spelled statements source.toList ∧
      ∃ tokens program, Token.readAll source "<input>" = .ok tokens ∧
        ofTokens tokens = .ok program ∧
        program.toList.map Statement.unplaced = statements.map Statement.canonical := by
  intro source number text name statements
  have isName : Lexeme.IsName "n" :=
    ⟨⟨_, _, rfl, rfl, List.all_eq_true.mp rfl⟩, by rintro (_ | _ | _ | _) <;> decide⟩
  have say : Lexeme.IsName "say" :=
    ⟨⟨_, _, rfl, rfl, List.all_eq_true.mp rfl⟩, by rintro (_ | _ | _ | _) <;> decide⟩
  have label : Statement.Spelled (.label "if") [":if".toList] :=
    .label ⟨_, _, rfl, rfl, List.all_eq_true.mp rfl⟩
  have hexadecimal : ∀ c ∈ "00fF".toList, Numeral.HexDigit c := by
    have digits : ("00fF".toList.all fun c => decide (Numeral.HexDigit c)) = true := rfl
    exact fun c member => of_decide_eq_true (List.all_eq_true.mp digits c member)
  have numberSpelled : Operand.Spelled number.term "0x00fF".toList :=
    @Operand.Spelled.integer 255 255 _ (.hexadecimal (by decide) hexadecimal) rfl
  have textSpelled : Operand.Spelled text.term "\"\\\\é\\0\"".toList :=
    .text (.escaped (by decide) (.plain (by decide) (by decide) (by decide)
      (.escaped (by decide) .nil)))
  have assign : Statement.Spelled (.assign "n" number) ["n".toList, ['='], "0x00fF".toList] :=
    .assign isName numberSpelled
  have call : Statement.Spelled (.call "say" [text, name] (.start ""))
      ["call".toList, "say".toList, "\"\\\\é\\0\"".toList, "n".toList] :=
    .keywordCall say (.cons textSpelled (.cons (.variable isName) .nil))
  have assigned : Line.Spaced ["n".toList, ['='], "0x00fF".toList] "n \t= 0x00fF".toList :=
    @Line.Spaced.cons _ [' ', '\t'] _ _ (by decide) (List.all_eq_true.mp rfl)
      (@Line.Spaced.cons _ [' '] _ _ (by decide) (List.all_eq_true.mp rfl) .single)
  have called : Line.Spaced ["call".toList, "say".toList, "\"\\\\é\\0\"".toList, "n".toList]
      "call say  \"\\\\é\\0\" n".toList :=
    @Line.Spaced.cons _ [' '] _ _ (by decide) (List.all_eq_true.mp rfl)
      (@Line.Spaced.cons _ [' ', ' '] _ _ (by decide) (List.all_eq_true.mp rfl)
        (@Line.Spaced.cons _ [' '] _ _ (by decide) (List.all_eq_true.mp rfl) .single))
  have lines : source.toList = ":if".toList ++ '\n' :: ("n \t= 0x00fF".toList ++ '\n' ::
      "call say  \"\\\\é\\0\" n".toList) := by decide
  have spelled : Program.Spelled statements source.toList :=
    lines ▸ .cons label .single (.cons assign assigned (.last call called))
  exact ⟨spelled, ofTokens_spelled spelled "<input>"⟩

end LineScript
