import LineScript.Interpreter
import LineScript.Proofs.Division
import LineScript.Proofs.Resemblance

/-!
Displacement. Where a source stands has no influence on how it is read: moved elsewhere it has the
same tokens and statements, or the same error, at moved places. Neither has the name of its file.
-/

namespace LineScript

def Token.mapPosition (f : Position → Position) (token : Token) : Token :=
  { token with position := f token.position }

def Operand.mapPosition (f : Position → Position) (operand : Operand) : Operand :=
  { operand with token := operand.token.mapPosition f }

def Destination.mapPosition (f : Position → Position) (destination : Destination) : Destination :=
  { destination with position := f destination.position }

def Statement.mapPosition (f : Position → Position) : Statement → Statement
  | .assign target value => .assign target (value.mapPosition f)
  | .compute target op lhs rhs => .compute target op (lhs.mapPosition f) (rhs.mapPosition f)
  | .branch op lhs rhs destination =>
      .branch op (lhs.mapPosition f) (rhs.mapPosition f) (destination.mapPosition f)
  | .label name => .label name
  | .jump destination => .jump (destination.mapPosition f)
  | .halt => .halt
  | .call name args position => .call name (args.map (Operand.mapPosition f)) (f position)

def LexicalError.mapPosition (f : Position → Position) (error : LexicalError) : LexicalError :=
  { error with position := f error.position }

def InvalidStatement.mapPosition (f : Position → Position) (error : InvalidStatement) :
    InvalidStatement :=
  { error with position := f error.position }

/-- The same place when a text that ends its last line is put before the source: as many lines and
bytes further down, in the same column. -/
def Position.below (text : List Char) (position : Position) : Position :=
  { position with
    line := position.line + text.count '\n', offset := position.offset + byteLength text }

/-- The same place in a file of another name. -/
def Position.inFile (file : String) (position : Position) : Position :=
  { position with file }

theorem Position.inFile_next (file : String) (position : Position) (c : Char) :
    (position.next c).inFile file = (position.inFile file).next c := by
  rw [next, next]
  split <;> rfl

theorem Position.below_next (text : List Char) (position : Position) (c : Char) :
    (position.next c).below text = (position.below text).next c := by
  rw [next, next]
  split <;> simp [below, Nat.add_right_comm]

variable {f : Position → Position}

theorem Position.map_after (next : ∀ position c, f (next position c) = (f position).next c)
    (position : Position) (passed : List Char) :
    f (position.after passed) = (f position).after passed := by
  induction passed generalizing position with
  | nil => rfl
  | cons c passed ih => rw [after_cons, after_cons, ih, next]

namespace Token

theorem Divided.mapPosition (next : ∀ position c, f (position.next c) = (f position).next c)
    {position : Position} {source : List Char} {tokens : List Token}
    {fault? : Option LexicalError} (divided : Divided position source tokens fault?) :
    Divided (f position) source (tokens.map (Token.mapPosition f))
      (fault?.map (LexicalError.mapPosition f)) := by
  induction divided with
  | done => exact .done
  | blank blank _ ih =>
      rw [next] at ih
      exact .blank blank ih
  | lexeme found _ ih =>
      rw [Position.map_after next] at ih
      exact .lexeme found ih
  | fault found => exact .fault found

theorem close_mapPosition (tokens : List Token) (theEnd : Position) :
    close (tokens.map (Token.mapPosition f)) (f theEnd) =
      (close tokens theEnd).map (Token.mapPosition f) := by
  rw [close, close, List.getLast?_map]
  cases tokens.getLast? with
  | none => rfl
  | some last =>
      by_cases ends : last.kind = .endOfStatement <;> simp [Token.mapPosition, isInLine, ends]

/-- The name of the file makes no difference to how a source is read. -/
theorem readAll_inFile {source file : String} {tokens : List Token}
    (read : readAll source file = .ok tokens) (other : String) :
    readAll source other = .ok (tokens.map (Token.mapPosition (.inFile other))) := by
  obtain ⟨found, fault?, divided⟩ := exists_divided (.start file) source.toList
  have moved : Divided (.start other) source.toList _ _ :=
    divided.mapPosition (Position.inFile_next other)
  rw [divided.readAll_eq] at read
  rw [moved.readAll_eq]
  cases fault? with
  | some fault => cases read
  | none =>
      cases read
      rw [← close_mapPosition, Position.map_after (Position.inFile_next other)]
      rfl

/-- A moved token says what it said. -/
theorem alike_mapPosition (tokens : List Token) :
    List.Forall₂ (Token.Alike fun position other => other = f position) tokens
      (tokens.map (Token.mapPosition f)) :=
  List.forall₂_map_right_iff.mpr (List.forall₂_same.mpr fun _ _ => ⟨rfl, rfl, fun _ => rfl⟩)

end Token

theorem Operand.Written.mapPosition {token : Token} {operand : Operand}
    (written : Operand.Written token operand) :
    Operand.Written (token.mapPosition f) (operand.mapPosition f) := by
  cases written with
  | integer kind decimal => exact .integer kind decimal
  | text kind => exact .text kind
  | «variable» kind => exact .variable kind

theorem Operand.written_mapPosition {tokens : List Token} {operands : List Operand}
    (written : List.Forall₂ Operand.Written tokens operands) :
    List.Forall₂ Operand.Written (tokens.map (Token.mapPosition f))
      (operands.map (Operand.mapPosition f)) := by
  rw [List.forall₂_map_left_iff, List.forall₂_map_right_iff]
  exact written.imp fun _ _ written => written.mapPosition

theorem Statement.Written.mapPosition {shape : Shape} {content : List Token}
    {statement : Statement} (written : Written shape content statement) :
    Written shape (content.map (Token.mapPosition f)) (statement.mapPosition f) := by
  cases written with
  | assign target equals value => exact .assign target equals value.mapPosition
  | compute target equals left operator right =>
      exact .compute target equals left.mapPosition operator right.mapPosition
  | branch conditional left operator right goto name =>
      exact .branch conditional left.mapPosition operator right.mapPosition goto name
  | label name => exact .label name
  | jump goto name => exact .jump goto name
  | halt word => exact .halt word
  | call name operands => exact .call name (Operand.written_mapPosition operands)
  | keywordCall word name operands =>
      exact .keywordCall word name (Operand.written_mapPosition operands)

namespace Line

theorem cut_mapPosition (tokens : List Token) :
    cut (tokens.map (Token.mapPosition f)) = (cut tokens).map (List.map (Token.mapPosition f)) := by
  induction tokens with
  | nil => rfl
  | cons token tokens ih =>
      have kind : (token.mapPosition f).kind = token.kind := rfl
      rw [List.map_cons, cut, cut, kind, ih]
      split
      · rfl
      · cases cut tokens <;> rfl

theorem isBare_mapPosition (line : List Token) :
    isBare (line.map (Token.mapPosition f)) = isBare line :=
  isBare_alike (Token.alike_mapPosition line)

theorem fits_mapPosition_iff (line : List Token) :
    Fits (line.map (Token.mapPosition f)) ↔ Fits line :=
  fits_alike_iff (Token.alike_mapPosition line)

theorem Reads.mapPosition {lines : List (List Token)} {found : List Statement}
    (reads : Reads lines found) :
    Reads (lines.map (List.map (Token.mapPosition f))) (found.map (Statement.mapPosition f)) := by
  have kept : ((fun line => !isBare line) ∘ List.map (Token.mapPosition f)) =
      fun line => !isBare line := by
    funext line
    rw [Function.comp_apply, isBare_mapPosition]
  rw [Reads, List.filter_map, kept, List.forall₂_map_left_iff, List.forall₂_map_right_iff]
  refine List.Forall₂.imp ?_ reads
  rintro line statement ⟨shape, content, stop, rfl, ends, written⟩
  exact ⟨shape, _, stop.mapPosition f, List.map_append, ends, written.mapPosition⟩

theorem FailsAt.mapPosition {lines : List (List Token)} {position : Position}
    (fails : FailsAt lines position) :
    FailsAt (lines.map (List.map (Token.mapPosition f))) (f position) := by
  obtain ⟨before, line, after, first, rfl, earlier, misfit, head, rfl⟩ := fails
  refine ⟨before.map (List.map (Token.mapPosition f)), line.map (Token.mapPosition f),
    after.map (List.map (Token.mapPosition f)), first.mapPosition f, by simp, ?_, ?_, ?_, rfl⟩
  · rw [List.forall_mem_map]
    exact fun line member => (fits_mapPosition_iff line).mpr (earlier line member)
  · rwa [fits_mapPosition_iff]
  · rw [List.head?_map, head]
    rfl

end Line

namespace Program
open Line

theorem ofTokens_of_failsAt {tokens : List Token} {position : Position}
    (fails : FailsAt (cut tokens) position) : ofTokens tokens = .error ⟨position⟩ := by
  obtain ⟨program, reads, _⟩ | ⟨other, fails', read⟩ := ofTokens_lines tokens
  · exact absurd reads.fits fails.not_fits
  · have same : Line.Alike Eq (cut tokens) (cut tokens) :=
      List.forall₂_same.mpr fun line _ => List.forall₂_same.mpr fun _ _ => ⟨rfl, rfl, fun _ => rfl⟩
    rw [read, fails.alike same fails']

theorem ofTokens_mapPosition (f : Position → Position) (tokens : List Token) :
    ofTokens (tokens.map (Token.mapPosition f)) =
      ((ofTokens tokens).mapError (InvalidStatement.mapPosition f)).map
        (Array.map (Statement.mapPosition f)) := by
  obtain ⟨program, reads, read⟩ | ⟨position, fails, read⟩ := ofTokens_lines tokens
  · have moved := reads.mapPosition (f := f)
    have array : (program.toList.map (Statement.mapPosition f)).toArray =
        program.map (Statement.mapPosition f) := by
      rw [← Array.toList_map]
    rw [← cut_mapPosition] at moved
    rw [read, ofTokens_of_reads moved, array]
    rfl
  · have moved := fails.mapPosition (f := f)
    rw [← cut_mapPosition] at moved
    rw [read, ofTokens_of_failsAt moved]
    rfl

/-- A program says the same in a file of another name. -/
theorem ofSource_inFile {source file : String} {program : Program}
    (accepted : ofSource source file = .ok program) (other : String) :
    ofSource source other = .ok (program.map (Statement.mapPosition (.inFile other))) := by
  rw [ofSource] at accepted ⊢
  cases read : Token.readAll source file with
  | error error =>
      rw [read] at accepted
      cases accepted
  | ok tokens =>
      rw [read] at accepted
      rw [Token.readAll_inFile read other]
      dsimp only at accepted ⊢
      rw [ofTokens_mapPosition]
      cases parsed : ofTokens tokens with
      | error error =>
          rw [parsed] at accepted
          cases accepted
      | ok found =>
          rw [parsed] at accepted
          cases accepted
          rfl

end Program
end LineScript
