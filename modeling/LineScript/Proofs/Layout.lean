import LineScript.Proofs.Reading

/-!
Layout: blanks between lexemes and blank lines where lines begin. However a source is laid out, its
tokens say the same, and only the places where they stand differ.
-/

namespace LineScript

/-- The second source is the first with blanks put in between its lexemes and blank lines put in
where its lines begin. A line is fresh as long as nothing but blanks stands on it. -/
inductive Source.Relaid : Bool → List Char → List Char → Prop
  | done {fresh : Bool} : Relaid fresh [] []
  | keep {fresh : Bool} {c : Char} {source other : List Char} : Lexeme.isBlank c = true →
      Relaid fresh source other → Relaid fresh (c :: source) (c :: other)
  | blank {fresh : Bool} {c : Char} {source other : List Char} : Lexeme.isBlank c = true →
      Relaid fresh source other → Relaid fresh source (c :: other)
  | blankLine {source other : List Char} : Relaid true source other →
      Relaid true source ('\n' :: other)
  | lexeme {fresh : Bool} {first : Char} {rest remaining other : List Char} {lexeme : Lexeme} :
      Lexeme.isBlank first = false → Lexeme.scan first rest = .ok (lexeme, remaining) →
      Relaid (lexeme.kind == .endOfStatement) remaining other →
      Relaid fresh (first :: rest) (lexeme.spelling ++ other)

/-- The second source is the first with carriage returns put in directly before its line feeds. -/
inductive Source.CarriageReturned : List Char → List Char → Prop
  | done : CarriageReturned [] []
  | keep {c : Char} {source other : List Char} : CarriageReturned source other →
      CarriageReturned (c :: source) (c :: other)
  | newline {source other : List Char} (count : Nat) : CarriageReturned source other →
      CarriageReturned ('\n' :: source) (List.replicate count '\r' ++ '\n' :: other)

/-- The same file, line and column, at any offset. -/
structure Position.SamePlace (position other : Position) : Prop where
  file : other.file = position.file
  line : other.line = position.line
  column : other.column = position.column

namespace Token

/-- Tokens that say the same. They stand at related places, except that no place matters for the end
of a statement. -/
structure Alike (R : Position → Position → Prop) (token other : Token) : Prop where
  kind : other.kind = token.kind
  text : other.text = token.text
  position : token.kind ≠ .endOfStatement → R token.position other.position

/-- The second list has the tokens of the first, each related to its counterpart, and more ends of
statements where a line begins. -/
inductive Aligned (R : Token → Token → Prop) : Bool → List Token → List Token → Prop
  | nil {fresh : Bool} : Aligned R fresh [] []
  | bare {stop : Token} {tokens others : List Token} : stop.kind = .endOfStatement →
      Aligned R true tokens others → Aligned R true tokens (stop :: others)
  | cons {fresh : Bool} {token other : Token} {tokens others : List Token} : R token other →
      Aligned R (token.kind == .endOfStatement) tokens others →
      Aligned R fresh (token :: tokens) (other :: others)

namespace Aligned

variable {R S : Token → Token → Prop} {fresh : Bool} {tokens others : List Token}

theorem imp (implies : ∀ token other, R token other → S token other)
    (aligned : Aligned R fresh tokens others) : Aligned S fresh tokens others := by
  induction aligned with
  | nil => exact .nil
  | bare ends _ ih => exact .bare ends ih
  | cons related _ ih => exact .cons (implies _ _ related) ih

/-- Each token in a line stands at the index of its counterpart when the ends of statements are left
out. -/
theorem zip (kinds : ∀ token other, R token other → other.kind = token.kind)
    (aligned : Aligned R fresh tokens others) :
    Aligned (fun token other => R token other ∧ (token.kind ≠ .endOfStatement →
      (token, other) ∈ (tokens.filter isInLine).zip (others.filter isInLine))) fresh
      tokens others := by
  induction aligned with
  | nil => exact .nil
  | @bare stop tokens others ends _ ih =>
      have skipped : (stop :: others).filter isInLine = others.filter isInLine :=
        List.filter_cons_of_neg (by simp [isInLine, ends])
      rw [skipped]
      exact .bare ends ih
  | @cons fresh token other tokens others related _ ih =>
      have same := kinds token other related
      by_cases ends : token.kind = .endOfStatement
      · rw [List.filter_cons_of_neg (by simp [isInLine, ends]),
          List.filter_cons_of_neg (by simp [isInLine, same, ends])]
        exact .cons ⟨related, fun inLine => absurd ends inLine⟩ ih
      · rw [List.filter_cons_of_pos (by simp [isInLine, ends]),
          List.filter_cons_of_pos (by simp [isInLine, same, ends]), List.zip_cons_cons]
        refine .cons ⟨related, fun _ => List.mem_cons_self⟩ (ih.imp ?_)
        exact fun _ _ found => ⟨found.1, fun inLine => List.mem_cons_of_mem _ (found.2 inLine)⟩

end Aligned

theorem Aligned.close {R : Position → Position → Prop} {fresh : Bool} {tokens others : List Token}
    (aligned : Aligned (Alike R) fresh tokens others) (theEnd theEnd' : Position) :
    Aligned (Alike R) fresh (close tokens theEnd) (close others theEnd') := by
  induction aligned with
  | nil => exact .nil
  | bare ends _ ih =>
      rw [close_cons, if_neg (by simp [ends])]
      exact .bare ends ih
  | @cons fresh token other tokens others alike rest ih =>
      rw [close_cons, close_cons, alike.kind]
      refine .cons alike ?_
      by_cases ends : token.kind = .endOfStatement
      · rw [if_neg (by simp [ends]), if_neg (by simp [ends])]
        exact ih
      · -- The line goes on, so either both lists end here or neither does.
        have inLine : (token.kind == .endOfStatement) = false := by simp [ends]
        rw [inLine] at rest ih ⊢
        cases rest with
        | nil =>
            rw [if_pos ⟨rfl, ends⟩, if_pos ⟨rfl, ends⟩]
            exact .cons ⟨rfl, rfl, fun inLine => absurd rfl inLine⟩ .nil
        | cons _ _ =>
            rw [if_neg (by simp), if_neg (by simp)]
            exact ih

end Token

namespace Source.Relaid

variable {fresh : Bool} {source other : List Char}

theorem closed (relaid : Relaid fresh source other) {lexeme : Lexeme}
    (closed : lexeme.Closed source) : lexeme.Closed other := by
  cases relaid with
  | done => exact closed
  | keep _ _ => exact (Lexeme.closed_congr rfl lexeme).mp closed
  | blank blank _ => exact Lexeme.closed_of_break (.inr blank) lexeme _
  | blankLine _ => exact Lexeme.closed_of_break (.inl rfl) lexeme _
  | lexeme _ scanned _ =>
      obtain ⟨covers, written, _⟩ := Lexeme.written_of_scan scanned
      obtain ⟨first, rest, spelled, _⟩ := written.head
      refine (Lexeme.closed_congr ?_ lexeme).mpr closed
      rw [covers, spelled]
      rfl

/-- The tokens of a source, however it is laid out. -/
theorem read (relaid : Relaid fresh source other) {position : Position} {tokens : List Token}
    (read : Token.Read position source tokens) (position' : Position) :
    ∃ others, Token.Read position' other others ∧
      Token.Aligned (Token.Alike fun _ _ => True) fresh tokens others := by
  induction relaid generalizing position tokens position' with
  | done =>
      rw [Token.read_nil_iff] at read
      subst read
      exact ⟨[], .nil, .nil⟩
  | keep blank _ ih =>
      rw [Token.read_blank_iff blank] at read
      obtain ⟨others, read', aligned⟩ := ih read (position'.next _)
      exact ⟨others, .blank blank read', aligned⟩
  | blank blank _ ih =>
      obtain ⟨others, read', aligned⟩ := ih read (position'.next _)
      exact ⟨others, .blank blank read', aligned⟩
  | blankLine _ ih =>
      obtain ⟨others, read', aligned⟩ := ih read (position'.after ['\n'])
      exact ⟨_, .lexeme .newline trivial read', .bare rfl aligned⟩
  | lexeme solid scanned relaid ih =>
      obtain ⟨_, written, closed⟩ := Lexeme.written_of_scan scanned
      obtain ⟨later, onward, rfl⟩ := (Token.read_scanned_iff solid scanned _ _).mp read
      obtain ⟨others, read', aligned⟩ := ih onward (position'.after _)
      exact ⟨_, .lexeme written (relaid.closed closed) read',
        .cons ⟨rfl, rfl, fun _ => trivial⟩ aligned⟩

theorem readAll {source other file : String} {tokens : List Token}
    (relaid : Relaid true source.toList other.toList)
    (read : Token.readAll source file = .ok tokens) :
    ∃ others, Token.readAll other file = .ok others ∧
      Token.Aligned (Token.Alike fun _ _ => True) true tokens others := by
  obtain ⟨found, onward, rfl⟩ := (Token.readAll_eq_ok_iff _ _ _).mp read
  obtain ⟨others, read', aligned⟩ := relaid.read onward (.start file)
  exact ⟨_, (Token.readAll_eq_ok_iff _ _ _).mpr ⟨others, read', rfl⟩, aligned.close _ _⟩

end Source.Relaid

namespace Position.SamePlace

variable {position other : Position}

theorem refl (position : Position) : position.SamePlace position :=
  ⟨rfl, rfl, rfl⟩

theorem next (same : position.SamePlace other) (c : Char) :
    (position.next c).SamePlace (other.next c) := by
  rw [Position.next, Position.next]
  split
  · exact ⟨same.file, congrArg (· + 1) same.line, rfl⟩
  · exact ⟨same.file, same.line, congrArg (· + 1) same.column⟩

theorem after (same : position.SamePlace other) (passed : List Char) :
    (position.after passed).SamePlace (other.after passed) := by
  induction passed generalizing position other with
  | nil => exact same
  | cons c passed ih => exact ih (same.next c)

end Position.SamePlace

theorem Position.line_after_carriageReturns (position : Position) (count : Nat) :
    (position.after (List.replicate count '\r')).line = position.line := by
  induction count generalizing position with
  | zero => rfl
  | succ count ih =>
      rw [List.replicate_succ, after_cons, ih]
      rfl

/-- A line begins at the same place however many carriage returns end the one before. -/
theorem Position.SamePlace.newline {position other : Position} (same : position.SamePlace other)
    (count : Nat) :
    (position.after ['\n']).SamePlace
      ((other.after (List.replicate count '\r')).after ['\n']) := by
  refine ⟨?_, ?_, rfl⟩
  · rw [file_after, file_after, file_after, same.file]
  · change (other.after _).line + 1 = position.line + 1
    rw [line_after_carriageReturns, same.line]

namespace Source.CarriageReturned

variable {source other : List Char}

theorem of_append {front back : List Char} (noNewline : '\n' ∉ front)
    (returned : CarriageReturned (front ++ back) other) :
    ∃ rest, other = front ++ rest ∧ CarriageReturned back rest := by
  induction front generalizing other with
  | nil => exact ⟨other, rfl, returned⟩
  | cons c front ih =>
      rw [List.mem_cons, not_or] at noNewline
      cases returned with
      | keep returned =>
          obtain ⟨rest, rfl, after⟩ := ih noNewline.2 returned
          exact ⟨rest, rfl, after⟩
      | newline count returned => exact absurd rfl noNewline.1

theorem of_newline (returned : CarriageReturned ('\n' :: source) other) :
    ∃ count rest, other = List.replicate count '\r' ++ '\n' :: rest ∧
      CarriageReturned source rest := by
  cases returned with
  | keep returned => exact ⟨0, _, rfl, returned⟩
  | newline count returned => exact ⟨count, _, rfl, returned⟩

theorem closed (returned : CarriageReturned source other) {lexeme : Lexeme}
    (closed : lexeme.Closed source) : lexeme.Closed other := by
  cases returned with
  | done => exact closed
  | keep _ => exact (Lexeme.closed_congr rfl lexeme).mp closed
  | newline count _ =>
      cases count with
      | zero => exact Lexeme.closed_of_break (.inl rfl) lexeme _
      | succ count => exact Lexeme.closed_of_break (.inr rfl) lexeme _

/-- Carriage returns before line feeds move no token of a line. -/
theorem read (returned : CarriageReturned source other) {position position' : Position}
    (same : position.SamePlace position') {tokens : List Token}
    (read : Token.Read position source tokens) (fresh : Bool) :
    ∃ others, Token.Read position' other others ∧
      Token.Aligned (Token.Alike Position.SamePlace) fresh tokens others := by
  induction read generalizing other position' fresh with
  | nil =>
      cases returned
      exact ⟨[], .nil, .nil⟩
  | @blank position c source tokens blank _ ih =>
      have noNewline : '\n' ∉ [c] := by
        rw [List.mem_singleton]
        rintro rfl
        cases blank
      obtain ⟨rest, rfl, after⟩ := of_append noNewline returned
      obtain ⟨others, read', aligned⟩ := ih after (same.next c) fresh
      exact ⟨others, .blank blank read', aligned⟩
  | @lexeme position lexeme remaining tokens written closed _ ih =>
      obtain rfl | ⟨_, noNewline⟩ := written.newline_or_inLine
      · obtain ⟨count, rest, rfl, after⟩ := returned.of_newline
        obtain ⟨others, read', aligned⟩ := ih after (same.newline count) true
        have blank : ∀ c ∈ List.replicate count '\r', Lexeme.isBlank c = true := by
          intro c member
          rw [List.eq_of_mem_replicate member]
          rfl
        exact ⟨_, .blanks blank (.lexeme .newline trivial read'),
          .cons ⟨rfl, rfl, fun inLine => absurd rfl inLine⟩ aligned⟩
      · obtain ⟨rest, rfl, after⟩ := of_append noNewline returned
        obtain ⟨others, read', aligned⟩ := ih after (same.after _)
          (lexeme.kind == .endOfStatement)
        exact ⟨_, .lexeme written (after.closed closed) read',
          .cons ⟨rfl, rfl, fun _ => same⟩ aligned⟩

theorem readAll {source other file : String} {tokens : List Token}
    (returned : CarriageReturned source.toList other.toList)
    (read : Token.readAll source file = .ok tokens) :
    ∃ others, Token.readAll other file = .ok others ∧
      Token.Aligned (Token.Alike Position.SamePlace) true tokens others := by
  obtain ⟨found, onward, rfl⟩ := (Token.readAll_eq_ok_iff _ _ _).mp read
  obtain ⟨others, read', aligned⟩ := returned.read (.refl (.start file)) onward true
  exact ⟨_, (Token.readAll_eq_ok_iff _ _ _).mpr ⟨others, read', rfl⟩, aligned.close _ _⟩

end Source.CarriageReturned
end LineScript
