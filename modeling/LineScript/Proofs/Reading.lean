import LineScript.Proofs.Lexicon
import LineScript.Token.Source

/-!
Reading tokens, as a relation. The tokens of a source are its lexemes in their order, with blanks
between them, and a lexeme is the same wherever it stands.
-/

namespace LineScript
namespace Lexeme

theorem Quoted.no_newline {content body : List Char} (quoted : Quoted content body) :
    '\n' ∉ body := by
  induction quoted with
  | nil => exact List.not_mem_nil
  | plain _ _ newline _ ih => simpa [newline.symm] using ih
  | @escaped letter _ _ _ escape _ ih =>
      have letters : ∀ entry ∈ escapes, entry.1 ≠ '\n' := by decide
      have newline := letters _ escape
      simpa [newline.symm] using ih

theorem no_newline_of_continues {run : List Char} (continues : ∀ c ∈ run, continuesWord c = true) :
    '\n' ∉ run := by
  intro member
  cases continues '\n' member

theorem operators_inLine : ∀ operator ∈ operators,
    operator.2 ≠ .endOfStatement ∧ '\n' ∉ operator.1.toList := by
  decide

theorem operators_no_literal : ∀ operator ∈ operators,
    operator.2 ≠ .integer ∧ operator.2 ≠ .label := by
  decide

theorem wordKind_no_literal (word : String) :
    wordKind word ≠ .integer ∧ wordKind word ≠ .label := by
  obtain kind | ⟨keyword, kind⟩ := wordKind_cases word <;> simp [kind]

theorem Written.of_label {lexeme : Lexeme} (written : lexeme.Written)
    (isLabel : lexeme.kind = .label) :
    IsWord lexeme.text.toList ∧ lexeme.spelling = ':' :: lexeme.text.toList := by
  cases written with
  | label isWord =>
      rw [String.toList_ofList]
      exact ⟨isWord, rfl⟩
  | newline | integer _ _ | text _ => cases isLabel
  | word _ => exact absurd isLabel (wordKind_no_literal _).2
  | operator member => exact absurd isLabel (operators_no_literal _ member).2

/-- Only a line feed ends a statement, and no other lexeme has one in it. -/
theorem Written.newline_or_inLine {lexeme : Lexeme} (written : lexeme.Written) :
    lexeme = ⟨.endOfStatement, "", ['\n']⟩ ∨
      (lexeme.kind ≠ .endOfStatement ∧ '\n' ∉ lexeme.spelling) := by
  cases written with
  | newline => exact .inl rfl
  | @word word isWord =>
      refine .inr ⟨?_, no_newline_of_continues isWord.continues⟩
      obtain kind | ⟨keyword, kind⟩ := wordKind_cases (String.ofList word) <;> simp [kind]
  | integer literal _ => exact .inr ⟨nofun, no_newline_of_continues (literal_continues literal)⟩
  | label isWord =>
      refine .inr ⟨nofun, ?_⟩
      simpa using no_newline_of_continues isWord.continues
  | text quoted =>
      refine .inr ⟨nofun, ?_⟩
      simpa using quoted.no_newline
  | operator member => exact .inr (operators_inLine _ member)

theorem isBlank_iff (c : Char) : isBlank c = true ↔ c = ' ' ∨ c = '\t' ∨ c = '\r' := by
  simp only [isBlank, Bool.or_eq_true, decide_eq_true_eq, or_assoc]

/-- A class of characters without the blanks. -/
theorem not_blank_of {accepts : Char → Bool} (outside : (" \t\r".toList).all (!accepts ·) = true)
    {c : Char} (accepted : accepts c = true) : isBlank c = false := by
  rw [Bool.eq_false_iff]
  intro blank
  obtain rfl | rfl | rfl := (isBlank_iff c).mp blank <;> simp [accepted] at outside

theorem Written.head {lexeme : Lexeme} (written : lexeme.Written) :
    ∃ first rest, lexeme.spelling = first :: rest ∧ isBlank first = false := by
  cases written with
  | newline | label _ | text _ => exact ⟨_, _, rfl, rfl⟩
  | word isWord =>
      obtain ⟨first, rest, rfl, starts, _⟩ := isWord
      exact ⟨first, rest, rfl, not_blank_of (by decide) starts⟩
  | integer literal _ =>
      obtain ⟨first, rest, rfl, digit⟩ := literal_head literal
      exact ⟨first, rest, rfl, not_blank_of (by decide) digit⟩
  | operator member =>
      obtain ⟨first, rest, spelled, operator⟩ := operator_head member
      exact ⟨first, rest, spelled, not_blank_of (by decide) operator⟩

theorem closed_congr {following other : List Char} (same : other.head? = following.head?)
    (lexeme : Lexeme) : lexeme.Closed other ↔ lexeme.Closed following := by
  rw [Closed.eq_def, Closed.eq_def, same]

theorem closed_nil (lexeme : Lexeme) : lexeme.Closed [] := by
  rw [Closed.eq_def]
  split <;> simp

/-- Blanks and line feeds end every lexeme. -/
theorem closed_of_break {c : Char} (breaks : c = '\n' ∨ isBlank c = true) (lexeme : Lexeme)
    (rest : List Char) : lexeme.Closed (c :: rest) := by
  have outside : continuesWord c = false ∧ c ≠ '=' := by
    rw [isBlank_iff] at breaks
    obtain rfl | rfl | rfl | rfl := breaks <;> decide
  have word : ∀ d ∈ (c :: rest).head?, continuesWord d = false := by simp [outside]
  have operator : (c :: rest).head? ≠ some '=' := by simp [outside]
  rw [Closed.eq_def]
  split <;> first | assumption | trivial

end Lexeme

namespace Token

/-- The tokens of a source that begins at the position, without what ends the last statement. -/
inductive Read : Position → List Char → List Token → Prop
  | nil {position : Position} : Read position [] []
  | blank {position : Position} {c : Char} {source : List Char} {tokens : List Token} :
      Lexeme.isBlank c = true → Read (position.next c) source tokens →
      Read position (c :: source) tokens
  | lexeme {position : Position} {lexeme : Lexeme} {remaining : List Char}
      {tokens : List Token} : lexeme.Written → lexeme.Closed remaining →
      Read (position.after lexeme.spelling) remaining tokens →
      Read position (lexeme.spelling ++ remaining) (ofLexeme position lexeme :: tokens)

theorem Read.blanks {blanks source : List Char} (blank : ∀ c ∈ blanks, Lexeme.isBlank c = true)
    {position : Position} {tokens : List Token}
    (read : Read (position.after blanks) source tokens) :
    Read position (blanks ++ source) tokens := by
  induction blanks generalizing position with
  | nil => exact read
  | cons c blanks ih =>
      rw [List.forall_mem_cons] at blank
      exact .blank blank.1 (ih blank.2 read)

theorem readFrom_scanned {c : Char} {rest remaining : List Char} {lexeme : Lexeme}
    (solid : Lexeme.isBlank c = false) (scanned : Lexeme.scan c rest = .ok (lexeme, remaining))
    (tokens : List Token) (position : Position) :
    readFrom tokens position (c :: rest) =
      readFrom (ofLexeme position lexeme :: tokens) (position.after lexeme.spelling) remaining := by
  rw [readFrom, if_neg (by simp [solid])]
  split
  · next found =>
      rw [scanned] at found
      cases found
  · next found =>
      rw [scanned] at found
      cases found
      rfl

theorem readFrom_faulty {c : Char} {rest : List Char} {fault : LexicalFault}
    (solid : Lexeme.isBlank c = false) (scanned : Lexeme.scan c rest = .error fault)
    (tokens : List Token) (position : Position) :
    readFrom tokens position (c :: rest) = .error ⟨fault, position⟩ := by
  rw [readFrom, if_neg (by simp [solid])]
  split
  · next found =>
      rw [scanned] at found
      cases found
      rfl
  · next found =>
      rw [scanned] at found
      cases found

theorem Read.readFrom_eq {position : Position} {source : List Char} {later : List Token}
    (read : Read position source later) (tokens : List Token) :
    readFrom tokens position source = .ok (tokens.reverse ++ later) := by
  induction read generalizing tokens with
  | nil => rw [readFrom, List.append_nil]
  | blank blank _ ih => rw [readFrom, if_pos blank, ih]
  | @lexeme position lexeme remaining later written closed _ ih =>
      obtain ⟨first, rest, spelled, solid⟩ := written.head
      have scanned : Lexeme.scan first (rest ++ remaining) = .ok (lexeme, remaining) :=
        Lexeme.scan_of_written written (by rw [spelled, List.cons_append]) closed
      have source : lexeme.spelling ++ remaining = first :: (rest ++ remaining) := by
        rw [spelled, List.cons_append]
      rw [source, readFrom_scanned solid scanned, ih, List.reverse_cons, List.append_assoc]
      rfl

theorem read_of_readFrom {tokens found : List Token} {position : Position} {source : List Char}
    (read : readFrom tokens position source = .ok found) :
    ∃ later, Read position source later ∧ found = tokens.reverse ++ later := by
  fun_induction readFrom tokens position source with
  | case1 tokens position =>
      cases read
      exact ⟨[], .nil, (List.append_nil _).symm⟩
  | case2 tokens position c rest blank ih =>
      obtain ⟨later, read, same⟩ := ih read
      exact ⟨later, .blank blank read, same⟩
  | case3 => cases read
  | case4 tokens position c rest _ lexeme remaining scanned ih =>
      obtain ⟨later, onward, rfl⟩ := ih read
      obtain ⟨covers, written, closed⟩ := Lexeme.written_of_scan scanned
      refine ⟨ofLexeme position lexeme :: later, ?_, by simp⟩
      rw [covers]
      exact .lexeme written closed onward

theorem readFrom_eq_ok_iff (position : Position) (source : List Char) (tokens : List Token) :
    readFrom [] position source = .ok tokens ↔ Read position source tokens := by
  constructor
  · intro read
    obtain ⟨later, found, rfl⟩ := read_of_readFrom read
    exact found
  · intro read
    exact read.readFrom_eq []

theorem readAll_eq_ok_iff (source file : String) (tokens : List Token) :
    readAll source file = .ok tokens ↔
      ∃ found, Read (.start file) source.toList found ∧
        tokens = close found ((Position.start file).after source.toList) := by
  simp only [← readFrom_eq_ok_iff, readAll]
  cases readFrom [] (.start file) source.toList with
  | error error => simp [Except.map]
  | ok found => simp [Except.map, eq_comm]

theorem close_cons (token : Token) (tokens : List Token) (theEnd : Position) :
    close (token :: tokens) theEnd =
      token :: (if tokens = [] ∧ token.kind ≠ .endOfStatement then
        [⟨.endOfStatement, "", 0, theEnd⟩] else close tokens theEnd) := by
  cases tokens with
  | nil => by_cases ends : token.kind = .endOfStatement <;> simp [close, isInLine, ends]
  | cons next tokens =>
      rw [if_neg (by simp), close, close, List.getLast?_cons_cons]
      split
      · split <;> rfl
      · next missing => simp at missing

theorem close_append {stop : Token} (ends : stop.kind = .endOfStatement)
    (content later : List Token) (theEnd : Position) :
    close (content ++ stop :: later) theEnd = content ++ stop :: close later theEnd := by
  induction content with
  | nil =>
      rw [List.nil_append, close_cons, if_neg (by simp [ends])]
      rfl
  | cons token content ih => rw [List.cons_append, close_cons, if_neg (by simp), ih]; rfl

/-- A line that goes on is closed at the end of the source. -/
theorem close_inLine {content : List Token} (nonempty : content ≠ [])
    (inLine : ∀ token ∈ content, token.kind ≠ .endOfStatement) (theEnd : Position) :
    close content theEnd = content ++ [⟨.endOfStatement, "", 0, theEnd⟩] := by
  have last := inLine _ (List.getLast_mem nonempty)
  rw [close, List.getLast?_eq_some_getLast nonempty]
  simp [isInLine, last]

theorem read_nil_iff (position : Position) (tokens : List Token) :
    Read position [] tokens ↔ tokens = [] := by
  rw [← readFrom_eq_ok_iff, readFrom, List.reverse_nil, Except.ok.injEq, eq_comm]

theorem read_blank_iff {c : Char} (blank : Lexeme.isBlank c = true) (position : Position)
    (source : List Char) (tokens : List Token) :
    Read position (c :: source) tokens ↔ Read (position.next c) source tokens := by
  rw [← readFrom_eq_ok_iff, readFrom, if_pos blank, readFrom_eq_ok_iff]

theorem read_scanned_iff {c : Char} {rest remaining : List Char} {lexeme : Lexeme}
    (solid : Lexeme.isBlank c = false) (scanned : Lexeme.scan c rest = .ok (lexeme, remaining))
    (position : Position) (tokens : List Token) :
    Read position (c :: rest) tokens ↔
      ∃ later, Read (position.after lexeme.spelling) remaining later ∧
        tokens = ofLexeme position lexeme :: later := by
  rw [← readFrom_eq_ok_iff, readFrom_scanned solid scanned]
  constructor
  · exact read_of_readFrom
  · rintro ⟨later, read, rfl⟩
    exact read.readFrom_eq _

end Token
end LineScript
