import LineScript.Proofs.LineComposition
import LineScript.Proofs.RoundTrip

/-!
The lines of a source and the statements of its program. A source is a program when each of its
lines is one alone. Lines with nothing but blanks say nothing, every other line says one statement,
and so the index of a statement can be counted off from the lines before it.
-/

namespace LineScript

/-- Induction on the lines of a source, from the last one to the first. -/
theorem lines_induction {motive : List Char → Prop}
    (single : ∀ line, '\n' ∉ line → motive line)
    (more : ∀ line rest, '\n' ∉ line → motive rest → motive (line ++ '\n' :: rest))
    (source : List Char) : motive source := by
  induction size : source.length using Nat.strong_induction_on generalizing source with
  | _ length ih =>
      by_cases newline : '\n' ∈ source
      · obtain ⟨line, rest, rfl, first⟩ := List.eq_append_cons_of_mem newline
        refine more line rest first (ih _ ?_ rest rfl)
        rw [← size, List.length_append, List.length_cons]
        omega
      · exact single source newline

namespace Token

theorem Read.unique {position : Position} {source : List Char} {tokens others : List Token}
    (read : Read position source tokens) (read' : Read position source others) :
    others = tokens := by
  rw [← readFrom_eq_ok_iff] at read read'
  cases read.symm.trans read'
  rfl

/-- A source is read in the same way wherever it begins. -/
theorem Read.elsewhere {position : Position} {source : List Char} {tokens : List Token}
    (read : Read position source tokens) (place : Position) :
    ∃ others, Read place source others ∧
      List.Forall₂ (Token.Alike fun _ _ => True) tokens others := by
  induction read generalizing place with
  | nil => exact ⟨[], .nil, .nil⟩
  | blank blank _ ih =>
      obtain ⟨others, read, same⟩ := ih (place.next _)
      exact ⟨others, .blank blank read, same⟩
  | lexeme written closed _ ih =>
      obtain ⟨others, read, same⟩ := ih (place.after _)
      exact ⟨_, .lexeme written closed read, .cons ⟨rfl, rfl, fun _ => trivial⟩ same⟩

/-- Only a line feed ends a statement. -/
theorem Read.inLine {position : Position} {source : List Char} {tokens : List Token}
    (read : Read position source tokens) (single : '\n' ∉ source) :
    ∀ token ∈ tokens, token.kind ≠ .endOfStatement := by
  intro token member
  obtain ⟨before, lexeme, after, rfl, next, rfl⟩ := read.placed token member
  obtain ⟨written, _⟩ := (Lexeme.next_ok_iff after lexeme).mp next
  obtain rfl | ⟨inLine, _⟩ := written.newline_or_inLine
  · exact absurd (by simp) single
  · exact inLine

theorem read_nil_of_blank {line : List Char} (blank : ∀ c ∈ line, Lexeme.isBlank c = true)
    (position : Position) : Read position line [] := by
  have read := Read.blanks blank (@Read.nil (position.after line))
  rwa [List.append_nil] at read

theorem Read.blank_of_nil {position : Position} {line : List Char} (read : Read position line []) :
    ∀ c ∈ line, Lexeme.isBlank c = true := by
  generalize none : [] = tokens at read
  induction read with
  | nil => exact List.forall_mem_nil _
  | blank blank _ ih => exact List.forall_mem_cons.mpr ⟨blank, ih none⟩
  | lexeme _ _ _ => cases none

/-- Two sources are read one after the other when a line feed is put between them. -/
theorem Read.join {position : Position} {front back : List Char} {tokens later : List Token}
    (read : Read position front tokens)
    (onward : Read (position.after (front ++ ['\n'])) back later) :
    Read position (front ++ '\n' :: back)
      (tokens ++ ⟨.endOfStatement, "", 1, position.after front⟩ :: later) := by
  induction read with
  | nil => exact .lexeme .newline trivial onward
  | blank blank _ ih => exact .blank blank (ih onward)
  | @lexeme position lexeme remaining tokens written closed _ ih =>
      rw [List.append_assoc, Position.after_append] at onward
      rw [List.append_assoc, Position.after_append]
      refine .lexeme written ?_ (ih onward)
      cases remaining with
      | nil => exact Lexeme.closed_of_break (.inl rfl) lexeme back
      | cons c remaining => exact (Lexeme.closed_congr rfl lexeme).mpr closed

/-- What reads as one token has nothing but blanks around it. -/
theorem Read.around {position : Position} {line : List Char} {token : Token}
    (read : Read position line [token]) :
    ∃ (lead : List Char) (lexeme : Lexeme) (trail : List Char),
      line = lead ++ (lexeme.spelling ++ trail) ∧
      (∀ c ∈ lead, Lexeme.isBlank c = true) ∧ (∀ c ∈ trail, Lexeme.isBlank c = true) ∧
      lexeme.Written ∧ lexeme.kind = token.kind ∧ lexeme.text = token.text := by
  generalize single : [token] = tokens at read
  induction read with
  | nil => cases single
  | @blank position c source tokens blank _ ih =>
      obtain ⟨lead, lexeme, trail, rfl, before, rest⟩ := ih single
      exact ⟨c :: lead, lexeme, trail, rfl, List.forall_mem_cons.mpr ⟨blank, before⟩, rest⟩
  | @lexeme position lexeme remaining tokens written _ onward _ =>
      cases single
      exact ⟨[], lexeme, remaining, rfl, List.forall_mem_nil _, onward.blank_of_nil, written, rfl,
        rfl⟩

end Token

namespace Line

/-- Whether a line of source says nothing. -/
def isBlank (line : List Char) : Bool :=
  line.all Lexeme.isBlank

/-- The index of the statement on the line of that number, which is how many lines before it say
something. -/
def statementIndex (lines : List (List Char)) (number : Nat) : Nat :=
  (lines.take number).countP fun line => !isBlank line

/-- The words with blanks between them, and maybe around them. -/
def Spells (words : List (List Char)) (line : List Char) : Prop :=
  ∃ lead spaced trail, line = lead ++ (spaced ++ trail) ∧ Spaced words spaced ∧
    (∀ c ∈ lead, Lexeme.isBlank c = true) ∧ ∀ c ∈ trail, Lexeme.isBlank c = true

/-- Words with one blank after each. -/
theorem Spaced.apart {words : List (List Char)} {line : List Char} (word : List Char)
    (spaced : Spaced words line) : Spaced (word :: words) (word ++ ([' '] ++ line)) :=
  .cons (List.cons_ne_nil _ _) (List.all_eq_true.mp rfl) spaced

theorem Spaced.spells {words : List (List Char)} {line : List Char} (spaced : Spaced words line) :
    Spells words line :=
  ⟨[], line, [], (List.append_nil line).symm, spaced, List.forall_mem_nil _, List.forall_mem_nil _⟩

theorem isBlank_iff_read {line : List Char} (position : Position) :
    isBlank line = true ↔ Token.Read position line [] := by
  rw [isBlank, List.all_eq_true]
  exact ⟨fun blank => Token.read_nil_of_blank blank position, Token.Read.blank_of_nil⟩

theorem statementIndex_succ (line : List Char) (lines : List (List Char)) (number : Nat) :
    statementIndex (line :: lines) (number + 1) =
      statementIndex lines number + if isBlank line then 0 else 1 := by
  rw [statementIndex, List.take_succ_cons, List.countP_cons, statementIndex]
  cases isBlank line <;> rfl

/-- The statement of a line comes before those of all later lines. -/
theorem statementIndex_lt {lines : List (List Char)} {number other : Nat} {line : List Char}
    (found : lines[number]? = some line) (solid : isBlank line = false) (later : number < other) :
    statementIndex lines number < statementIndex lines other := by
  have next : lines.take (number + 1) = lines.take number ++ [line] := by
    rw [List.take_add_one, found]
    rfl
  have within : (lines.take (number + 1)).Sublist (lines.take other) :=
    List.take_sublist_take_left later
  have counted : (lines.take (number + 1)).countP (fun line => !isBlank line) ≤
      statementIndex lines other := within.countP_le
  rw [next, List.countP_append, List.countP_singleton, if_pos (by rw [solid]; rfl)] at counted
  exact counted

/-- A line that says written words is read as their tokens. -/
theorem Spells.read {words : List (List Char)} {line : List Char} (spells : Spells words line)
    {lexemes : List Lexeme} (spellings : lexemes.map Lexeme.spelling = words)
    (written : ∀ lexeme ∈ lexemes, lexeme.Written) (position : Position) :
    ∃ tokens, List.Forall₂ Token.Of lexemes tokens ∧ Token.Read position line tokens := by
  obtain ⟨lead, spaced, trail, rfl, isSpaced, before, after⟩ := spells
  have closed (lexeme : Lexeme) : lexeme.Closed trail := by
    cases trail with
    | nil => exact Lexeme.closed_nil lexeme
    | cons c trail =>
        exact Lexeme.closed_of_break (.inr (after c List.mem_cons_self)) lexeme trail
  have rest := Token.read_nil_of_blank after ((position.after lead).after spaced)
  obtain ⟨tokens, same, read⟩ := isSpaced.read spellings written closed rest
  rw [List.append_nil] at read
  exact ⟨tokens, same, .blanks before read⟩

end Line

/-- The first of several lines is bare, or it holds the first of the statements. -/
theorem Line.reads_cons {line : List Token} {lines : List (List Token)} {found : List Statement}
    (reads : Line.Reads (line :: lines) found) :
    Line.isBare line = true ∧ Line.Reads lines found ∨
      ∃ shape statement others, Line.Holds shape line statement ∧ found = statement :: others ∧
        Line.Reads lines others := by
  rw [Line.Reads] at reads
  cases bare : Line.isBare line with
  | true =>
      rw [List.filter_cons_of_neg (by simp [bare])] at reads
      exact .inl ⟨rfl, reads⟩
  | false =>
      rw [List.filter_cons_of_pos (by simp [bare])] at reads
      obtain _ | ⟨⟨shape, holds⟩, rest⟩ := reads
      exact .inr ⟨shape, _, _, holds, rfl, rest⟩

/-- The line is read as the statement, at some place. -/
def Statement.On (statement : Statement) (line : List Char) : Prop :=
  ∃ position tokens shape, Token.Read position line tokens ∧ Written shape tokens statement

namespace Statement

theorem On.not_blank {statement : Statement} {line : List Char} (on : statement.On line) :
    Line.isBlank line = false := by
  obtain ⟨position, tokens, shape, read, written⟩ := on
  rw [Bool.eq_false_iff]
  intro blank
  have nothing := (Line.isBlank_iff_read position).mp blank
  exact written.ne_nil (nothing.unique read)

/-- A line that says a statement is read as that statement, up to places. -/
theorem On.unplaced_eq {statement other : Statement} {line : List Char} {words : List (List Char)}
    (on : statement.On line) (spells : Line.Spells words line) (spelled : other.Spelled words) :
    statement.unplaced = other.canonical := by
  obtain ⟨position, tokens, shape, read, written⟩ := on
  obtain ⟨lexemes, allWritten, spellings, writes⟩ := spelled.lexemes
  obtain ⟨found, same, foundRead⟩ := spells.read spellings allWritten position
  obtain rfl := foundRead.unique read
  obtain ⟨_, _, written', unplaced⟩ := writes _ same
  obtain ⟨_, rfl⟩ := written.unique written'
  exact unplaced

theorem exists_on_of_spells {statement : Statement} {line : List Char} {words : List (List Char)}
    (spells : Line.Spells words line) (spelled : statement.Spelled words) :
    ∃ found : Statement, found.On line := by
  obtain ⟨lexemes, allWritten, spellings, writes⟩ := spelled.lexemes
  obtain ⟨tokens, same, read⟩ := spells.read spellings allWritten (.start "")
  obtain ⟨shape, found, written, _⟩ := writes tokens same
  exact ⟨found, _, tokens, shape, read, written⟩

/-- Only the label itself is written on the line that defines it. -/
theorem On.spells_label {name : String} {line : List Char} (on : (label name).On line) :
    Line.Spells [':' :: name.toList] line := by
  obtain ⟨position, tokens, shape, read, written⟩ := on
  generalize isLabel : label name = statement at written
  cases written with
  | @label token kind =>
      cases isLabel
      obtain ⟨lead, lexeme, trail, rfl, before, after, written, sameKind, sameText⟩ := read.around
      have spelling := (written.of_label (sameKind.trans kind)).2
      rw [sameText] at spelling
      exact ⟨lead, lexeme.spelling, trail, rfl, spelling ▸ .single, before, after⟩
  | _ => cases isLabel

end Statement

namespace Line

/-- Wherever the line begins, its tokens write a statement, or there are none. -/
def Stands (line : List Char) : Prop :=
  ∀ position, ∃ content, Token.Read position line content ∧
    (content = [] ∨ ∃ shape statement, Statement.Written shape content statement)

theorem stands_of_blank {line : List Char} (blank : isBlank line = true) : Stands line :=
  fun position => ⟨[], (isBlank_iff_read position).mp blank, .inl rfl⟩

theorem exists_reads_cons {content : List Token} {stop : Token}
    (written : content = [] ∨ ∃ shape statement, Statement.Written shape content statement)
    (ends : stop.kind = .endOfStatement) {lines : List (List Token)} {others : List Statement}
    (reads : Reads lines others) :
    ∃ statements, Reads ((content ++ [stop]) :: lines) statements := by
  obtain rfl | ⟨shape, statement, written⟩ := written
  · exact ⟨others, reads.bare (isBare_iff.mpr ⟨stop, rfl, ends⟩)⟩
  · exact ⟨statement :: others, reads.cons ⟨content, stop, rfl, ends, written⟩⟩

end Line

theorem Statement.On.stands {statement : Statement} {line : List Char} (on : statement.On line) :
    Line.Stands line := by
  obtain ⟨position, tokens, shape, read, written⟩ := on
  intro place
  obtain ⟨content, read, same⟩ := read.elsewhere place
  obtain ⟨other, written, _⟩ := written.alike same
  exact ⟨content, read, .inr ⟨shape, other, written⟩⟩

/-- The statements of the lines of a source, one for each line that is not blank. -/
inductive Program.Lined : List (List Char) → List Statement → Prop
  | nil : Lined [] []
  | blank {line : List Char} {lines : List (List Char)} {statements : List Statement} :
      Line.isBlank line = true → Lined lines statements → Lined (line :: lines) statements
  | statement {line : List Char} {statement : Statement} {lines : List (List Char)}
      {statements : List Statement} : statement.On line → Lined lines statements →
      Lined (line :: lines) (statement :: statements)

namespace Program

theorem Lined.exists_statement {lines : List (List Char)} {statements : List Statement}
    (lined : Lined lines statements) {number : Nat} {line : List Char}
    (found : lines[number]? = some line) (solid : Line.isBlank line = false) :
    ∃ statement, statements[Line.statementIndex lines number]? = some statement ∧
      statement.On line := by
  induction lined generalizing number with
  | nil => cases found
  | blank blank _ ih =>
      cases number with
      | zero =>
          cases found
          cases blank.symm.trans solid
      | succ number =>
          rw [Line.statementIndex_succ, if_pos blank]
          exact ih found
  | statement on _ ih =>
      cases number with
      | zero =>
          cases found
          exact ⟨_, rfl, on⟩
      | succ number =>
          rw [Line.statementIndex_succ, if_neg (by simp [on.not_blank])]
          exact ih found

theorem Lined.exists_line {lines : List (List Char)} {statements : List Statement}
    (lined : Lined lines statements) {index : Nat} {statement : Statement}
    (found : statements[index]? = some statement) :
    ∃ number line, lines[number]? = some line ∧ Line.statementIndex lines number = index ∧
      statement.On line := by
  induction lined generalizing index with
  | nil => cases found
  | blank blank _ ih =>
      obtain ⟨number, line, inside, count, on⟩ := ih found
      refine ⟨number + 1, line, inside, ?_, on⟩
      rw [Line.statementIndex_succ, if_pos blank, count]
      rfl
  | @statement line _ _ _ on _ ih =>
      cases index with
      | zero =>
          cases found
          exact ⟨0, line, rfl, rfl, on⟩
      | succ index =>
          obtain ⟨number, other, inside, count, on'⟩ := ih found
          refine ⟨number + 1, other, inside, ?_, on'⟩
          rw [Line.statementIndex_succ, if_neg (by simp [on.not_blank]), count]

/-- A line of source is blank, or it is read as the statement that its tokens write. -/
theorem Lined.cons {position : Position} {line : List Char} {content : List Token} {stop : Token}
    (read : Token.Read position line content) {lines : List (List Token)}
    {statements : List Statement} (reads : Line.Reads ((content ++ [stop]) :: lines) statements)
    {rest : List (List Char)}
    (onward : ∀ others, Line.Reads lines others → Lined rest others) :
    Lined (line :: rest) statements := by
  obtain ⟨bare, others⟩ | ⟨shape, statement, others, ⟨_, _, split, _, written⟩, rfl, later⟩ :=
    Line.reads_cons reads
  · obtain ⟨_, split, _⟩ := Line.isBare_iff.mp bare
    obtain ⟨rfl, _⟩ := List.append_eq_singleton_iff.mp split |>.resolve_right (by simp)
    exact .blank ((Line.isBlank_iff_read position).mpr read) (onward statements others)
  · obtain ⟨rfl, _⟩ := List.append_inj' split rfl
    exact .statement ⟨position, content, shape, read, written⟩ (onward others later)

theorem lined_of_reads {position : Position} {source : List Char} {tokens : List Token}
    (read : Token.Read position source tokens) {theEnd : Position} {statements : List Statement}
    (reads : Line.Reads (Line.cut (Token.close tokens theEnd)) statements) :
    Lined (source.splitOn '\n') statements := by
  induction source using lines_induction generalizing position tokens statements with
  | single line inLine =>
      rw [List.splitOn_eq_singleton inLine]
      by_cases empty : tokens = []
      · subst empty
        cases reads
        exact .blank ((Line.isBlank_iff_read position).mpr read) .nil
      · have content := read.inLine inLine
        rw [Token.close_inLine empty content, Line.cut_append content rfl] at reads
        refine .cons read reads fun others rest => ?_
        cases rest
        exact .nil
  | more line rest inLine ih =>
      obtain ⟨content, later, lineRead, rfl, onward⟩ := read.split_lineFeed rfl
      rw [List.splitOn_append_cons_self_of_not_mem inLine]
      rw [Token.close_append rfl, Line.cut_append (lineRead.inLine inLine) rfl] at reads
      exact .cons lineRead reads fun others => ih onward

/-- The source is that of a program. -/
def Accepted (file : String) (source : List Char) : Prop :=
  ∃ tokens program, Token.readAll (String.ofList source) file = .ok tokens ∧
    ofTokens tokens = .ok program

theorem accepted_iff (file : String) (source : List Char) :
    Accepted file source ↔ ∃ tokens statements, Token.Read (.start file) source tokens ∧
      Line.Reads (Line.cut (Token.close tokens ((Position.start file).after source)))
        statements := by
  simp only [Accepted, Token.readAll_eq_ok_iff, String.toList_ofList]
  constructor
  · rintro ⟨_, program, ⟨found, read, rfl⟩, parsed⟩
    obtain ⟨other, reads, _⟩ | ⟨_, _, failed⟩ := ofTokens_lines
      (Token.close found ((Position.start file).after source))
    · exact ⟨found, _, read, reads⟩
    · cases failed.symm.trans parsed
  · rintro ⟨found, statements, read, reads⟩
    exact ⟨_, _, ⟨found, read, rfl⟩, ofTokens_of_reads reads⟩

theorem Lined.stands {lines : List (List Char)} {statements : List Statement}
    (lined : Lined lines statements) : ∀ line ∈ lines, Line.Stands line := by
  induction lined with
  | nil => exact List.forall_mem_nil _
  | blank blank _ ih => exact List.forall_mem_cons.mpr ⟨Line.stands_of_blank blank, ih⟩
  | statement on _ ih => exact List.forall_mem_cons.mpr ⟨on.stands, ih⟩

/-- Lines that stand alone make up a program. -/
theorem exists_reads_of_stands (theEnd position : Position) (source : List Char)
    (stands : ∀ line ∈ source.splitOn '\n', Line.Stands line) :
    ∃ tokens statements, Token.Read position source tokens ∧
      Line.Reads (Line.cut (Token.close tokens theEnd)) statements := by
  induction source using lines_induction generalizing position with
  | single line inLine =>
      rw [List.splitOn_eq_singleton inLine, List.forall_mem_singleton] at stands
      obtain ⟨content, read, written⟩ := stands position
      by_cases empty : content = []
      · subst empty
        exact ⟨[], [], read, .nil⟩
      · let stop : Token := ⟨.endOfStatement, "", 0, theEnd⟩
        have nothing : Line.Reads [] [] := .nil
        obtain ⟨statements, reads⟩ := Line.exists_reads_cons written (rfl : stop.kind = _) nothing
        have inLine := read.inLine inLine
        refine ⟨content, statements, read, ?_⟩
        rwa [Token.close_inLine empty inLine, Line.cut_append inLine rfl]
  | more line rest inLine ih =>
      rw [List.splitOn_append_cons_self_of_not_mem inLine, List.forall_mem_cons] at stands
      obtain ⟨content, read, written⟩ := stands.1 position
      obtain ⟨later, others, onward, reads⟩ := ih (position.after (line ++ ['\n'])) stands.2
      let stop : Token := ⟨.endOfStatement, "", 1, position.after line⟩
      obtain ⟨statements, reads⟩ := Line.exists_reads_cons written (rfl : stop.kind = _) reads
      refine ⟨_, statements, read.join onward, ?_⟩
      rwa [Token.close_append rfl, Line.cut_append (read.inLine inLine) rfl]

theorem accepted_iff_stands (file : String) (source : List Char) :
    Accepted file source ↔ ∀ line ∈ source.splitOn '\n', Line.Stands line := by
  rw [accepted_iff]
  constructor
  · rintro ⟨tokens, statements, read, reads⟩
    exact (lined_of_reads read reads).stands
  · exact exists_reads_of_stands _ _ source

theorem newline_notMem_of_mem_splitOn {source line : List Char}
    (member : line ∈ source.splitOn '\n') : '\n' ∉ line := by
  induction source using lines_induction with
  | single other inLine =>
      rw [List.splitOn_eq_singleton inLine, List.mem_singleton] at member
      exact member ▸ inLine
  | more other rest inLine ih =>
      rw [List.splitOn_append_cons_self_of_not_mem inLine, List.mem_cons] at member
      obtain rfl | later := member
      · exact inLine
      · exact ih later

theorem accepted_iff_stands_of_mem {source line : List Char} (member : line ∈ source.splitOn '\n')
    (file : String) : Accepted file line ↔ Line.Stands line := by
  have single := newline_notMem_of_mem_splitOn member
  rw [accepted_iff_stands, List.splitOn_eq_singleton single, List.forall_mem_singleton]

/-- A source is that of a program when each of its lines is. -/
theorem accepted_iff_lines (file : String) (source : List Char) :
    Accepted file source ↔ ∀ line ∈ source.splitOn '\n', Accepted file line := by
  rw [accepted_iff_stands]
  exact forall₂_congr fun line member => (accepted_iff_stands_of_mem member file).symm

end Program

end LineScript
