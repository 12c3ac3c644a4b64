import LineScript.Proofs.Division
import Mathlib.Data.List.DropRight

/-!
Where tokens lie. They tile the source in its order, with nothing but blanks between them, and the
line, column and offset of each can be counted off from what stands before it.
-/

namespace LineScript
namespace Position

/-- The place with `passed` before it: line feeds make lines, and characters since the last one make
columns. -/
def behind (file : String) (passed : List Char) : Position where
  file := file
  line := 1 + passed.count '\n'
  column := 1 + (passed.rtakeWhile (· ≠ '\n')).length
  offset := byteLength passed

theorem start_after (file : String) (passed : List Char) :
    (start file).after passed = behind file passed := by
  induction passed using List.reverseRecOn with
  | nil => rfl
  | append_singleton passed c ih =>
      rw [after_append, ih, after_cons, after_nil, next]
      split
      · next newline =>
          subst newline
          simp [behind, List.rtakeWhile_concat_neg, Nat.add_assoc]
      · next other =>
          simp [behind, List.count_append, other, Nat.add_assoc]

theorem offset_next (position : Position) (c : Char) :
    (position.next c).offset = position.offset + c.utf8Size := by
  rw [next]
  split <;> rfl

end Position

namespace Token

/-- The bytes of source that a token stands on. -/
def Covers (token : Token) (byte : Nat) : Prop :=
  token.position.offset ≤ byte ∧ byte < token.position.offset + token.length

instance (token : Token) (byte : Nat) : Decidable (token.Covers byte) :=
  inferInstanceAs (Decidable (_ ∧ _))

/-- The token ends where the later one begins, or before that. -/
def Before (token later : Token) : Prop :=
  token.position.offset + token.length ≤ later.position.offset

/-- The tokens tile the source. Each stands on a piece of it and in order, and a byte on which none
stands is a blank; a line feed is a token of its own. -/
structure Tiles (source : List Char) (file : String) (tokens : List Token) : Prop where
  ordered : tokens.Pairwise Before
  placed : ∀ token ∈ tokens, ∃ before spelling after, source = before ++ (spelling ++ after) ∧
    token.length = byteLength spelling ∧ token.position = .behind file before
  gaps : ∀ byte < byteLength source, (∀ token ∈ tokens, ¬ token.Covers byte) →
    ∃ before c after, source = before ++ c :: after ∧ byteLength before = byte ∧
      (c = ' ' ∨ c = '\t' ∨ c = '\r')
  lineFeeds : ∀ before after, source = before ++ '\n' :: after →
    tokens.filter (·.Covers (byteLength before)) = [⟨.endOfStatement, "", 1, .behind file before⟩]
  ended : ∀ last ∈ tokens.getLast?, last.kind = .endOfStatement
  /-- Only the token that ends an unended last line covers nothing. -/
  covering : ∃ real : List Token, (∀ token ∈ real, 0 < token.length) ∧
    ((tokens = real ∧ ∀ last ∈ real.getLast?, last.kind = .endOfStatement) ∨
      (tokens = real ++ [⟨.endOfStatement, "", 0, .behind file source⟩] ∧
        ∃ last ∈ real.getLast?, last.kind ≠ .endOfStatement))

theorem Read.placed {position : Position} {source : List Char} {tokens : List Token}
    (read : Read position source tokens) :
    ∀ token ∈ tokens, ∃ before lexeme after, source = before ++ (lexeme.spelling ++ after) ∧
      Lexeme.Next (lexeme.spelling ++ after) (.ok lexeme) ∧
      token = ofLexeme (position.after before) lexeme := by
  induction read with
  | nil => exact List.forall_mem_nil _
  | @blank position c source tokens _ _ ih =>
      intro token member
      obtain ⟨before, lexeme, after, rfl, next, same⟩ := ih token member
      exact ⟨c :: before, lexeme, after, rfl, next, same⟩
  | @lexeme position lexeme remaining tokens written closed _ ih =>
      have next := (Lexeme.next_ok_iff remaining lexeme).mpr ⟨written, closed⟩
      rw [List.forall_mem_cons]
      refine ⟨⟨[], lexeme, remaining, rfl, next, rfl⟩, ?_⟩
      intro token member
      obtain ⟨before, later, after, rfl, next, same⟩ := ih token member
      refine ⟨lexeme.spelling ++ before, later, after, by rw [List.append_assoc], next, ?_⟩
      rw [same, Position.after_append]

theorem Read.ordered {position : Position} {source : List Char} {tokens : List Token}
    (read : Read position source tokens) : tokens.Pairwise Before := by
  induction read with
  | nil => exact .nil
  | blank _ _ ih => exact ih
  | @lexeme position lexeme remaining tokens _ _ onward ih =>
      refine .cons ?_ ih
      intro later member
      obtain ⟨before, found, after, _, _, rfl⟩ := onward.placed later member
      simp only [Before, ofLexeme, Position.offset_after]
      exact Nat.le_add_right _ _

theorem Read.covered_or_blank {position : Position} {source : List Char} {tokens : List Token}
    (read : Read position source tokens) {byte : Nat} (lower : position.offset ≤ byte)
    (upper : byte < position.offset + byteLength source) :
    (∃ token ∈ tokens, token.Covers byte) ∨
      ∃ before c after, source = before ++ c :: after ∧
        position.offset + byteLength before = byte ∧ Lexeme.isBlank c = true := by
  induction read with
  | nil => exact absurd upper (Nat.not_lt.mpr lower)
  | @blank position c source tokens blank _ ih =>
      have single : c.utf8Size = 1 := by
        obtain rfl | rfl | rfl := (Lexeme.isBlank_iff c).mp blank <;> rfl
      obtain here | later := Nat.eq_or_lt_of_le lower
      · exact .inr ⟨[], c, source, rfl, here, blank⟩
      · rw [byteLength_cons, ← Nat.add_assoc] at upper
        have onward := ih (by rw [Position.offset_next, single]; exact later)
          (by rwa [Position.offset_next])
        refine onward.imp_right ?_
        rintro ⟨before, d, after, rfl, place, blank⟩
        rw [Position.offset_next, Nat.add_assoc] at place
        exact ⟨c :: before, d, after, rfl, place, blank⟩
  | @lexeme position lexeme remaining tokens _ _ _ ih =>
      obtain inside | beyond := Nat.lt_or_ge byte (position.offset + byteLength lexeme.spelling)
      · exact .inl ⟨_, List.mem_cons_self, lower, inside⟩
      · rw [byteLength_append, ← Nat.add_assoc] at upper
        have onward := ih (by rwa [Position.offset_after]) (by rwa [Position.offset_after])
        refine onward.imp ?_ ?_
        · rintro ⟨token, member, covers⟩
          exact ⟨token, List.mem_cons_of_mem _ member, covers⟩
        · rintro ⟨before, d, after, rfl, place, blank⟩
          rw [Position.offset_after, Nat.add_assoc] at place
          exact ⟨lexeme.spelling ++ before, d, after, by rw [List.append_assoc],
            by rw [byteLength_append, place], blank⟩

/-- A line feed divides what is read: the source before it is read alone, and the source after it
goes on from there. -/
theorem Read.split_lineFeed {position : Position} {source : List Char} {tokens : List Token}
    (read : Read position source tokens) {before after : List Char}
    (split : source = before ++ '\n' :: after) :
    ∃ earlier later, Read position before earlier ∧
      tokens = earlier ++ ⟨.endOfStatement, "", 1, position.after before⟩ :: later ∧
      Read (position.after (before ++ ['\n'])) after later := by
  induction read generalizing before with
  | nil => exact absurd split.symm (by simp)
  | @blank position c source tokens blank _ ih =>
      cases before with
      | nil =>
          cases split
          cases blank
      | cons d before =>
          cases split
          obtain ⟨earlier, later, front, same, onward⟩ := ih rfl
          exact ⟨earlier, later, .blank blank front, same, onward⟩
  | @lexeme position lexeme remaining tokens written closed onward ih =>
      obtain ⟨passed, rfl, rest⟩ | ⟨inside, covers, rest⟩ := List.append_eq_append_iff.mp split
      · obtain ⟨earlier, later, front, rfl, read⟩ := ih rest
        have closed := Lexeme.closed_of_append (rest ▸ closed)
        rw [List.append_assoc, Position.after_append, Position.after_append]
        exact ⟨ofLexeme position lexeme :: earlier, later, .lexeme written closed front, rfl, read⟩
      · cases inside with
        | nil =>
            rw [List.append_nil] at covers
            subst covers
            obtain ⟨earlier, later, front, rfl, read⟩ := @ih [] rest.symm
            have alone := Read.lexeme written (Lexeme.closed_nil lexeme) front
            rw [List.append_nil] at alone
            rw [Position.after_append]
            exact ⟨ofLexeme position lexeme :: earlier, later, alone, rfl, read⟩
        | cons c inside =>
            cases rest
            obtain rfl | ⟨_, inLine⟩ := written.newline_or_inLine
            · obtain rfl : before = [] := by
                cases before with
                | nil => rfl
                | cons d before => simp at covers
              cases covers
              exact ⟨[], tokens, .nil, rfl, onward⟩
            · exact absurd (covers ▸ List.mem_append_right before List.mem_cons_self) inLine

/-- Every line feed is a token, and what follows it is read on its own. -/
theorem Read.lineFeed {position : Position} {source : List Char} {tokens : List Token}
    (read : Read position source tokens) {before after : List Char}
    (split : source = before ++ '\n' :: after) :
    ∃ earlier later, tokens = earlier ++ ⟨.endOfStatement, "", 1, position.after before⟩ :: later ∧
      Read (position.after (before ++ ['\n'])) after later := by
  obtain ⟨earlier, later, _, same, onward⟩ := read.split_lineFeed split
  exact ⟨earlier, later, same, onward⟩

/-- In ordered tokens, one that covers the byte where it begins is alone there. -/
theorem filter_covers {tokens : List Token} (ordered : tokens.Pairwise Before) {token : Token}
    (member : token ∈ tokens) (covering : 0 < token.length) :
    tokens.filter (·.Covers token.position.offset) = [token] := by
  obtain ⟨earlier, later, rfl⟩ := List.append_of_mem member
  rw [List.pairwise_append, List.pairwise_cons] at ordered
  obtain ⟨_, ⟨behind, _⟩, ahead⟩ := ordered
  have outside (other : Token) (elsewhere : other ∈ earlier ∨ other ∈ later) :
      decide (other.Covers token.position.offset) = false := by
    rw [decide_eq_false_iff_not, Covers]
    obtain member | member := elsewhere
    · have := ahead other member token List.mem_cons_self
      rw [Before] at this
      omega
    · have := behind other member
      rw [Before] at this
      omega
  have itself : decide (token.Covers token.position.offset) = true :=
    decide_eq_true ⟨Nat.le_refl _, Nat.lt_add_of_pos_right covering⟩
  have no_earlier : earlier.filter (·.Covers token.position.offset) = [] :=
    List.filter_eq_nil_iff.mpr fun other member => by simp [outside other (.inl member)]
  have no_later : later.filter (·.Covers token.position.offset) = [] :=
    List.filter_eq_nil_iff.mpr fun other member => by simp [outside other (.inr member)]
  rw [List.filter_append, no_earlier, List.filter_cons, if_pos itself, no_later]
  rfl

theorem close_cases (tokens : List Token) (theEnd : Position) :
    (close tokens theEnd = tokens ∧ ∀ last ∈ tokens.getLast?, last.kind = .endOfStatement) ∨
      (close tokens theEnd = tokens ++ [⟨.endOfStatement, "", 0, theEnd⟩] ∧
        ∃ last ∈ tokens.getLast?, last.kind ≠ .endOfStatement) := by
  rw [close]
  cases found : tokens.getLast? with
  | none => simp [List.getLast?_eq_none_iff.mp found]
  | some last => by_cases ends : last.kind = .endOfStatement <;> simp [isInLine, ends]

theorem close_ended (tokens : List Token) (theEnd : Position) :
    ∀ last ∈ (close tokens theEnd).getLast?, last.kind = .endOfStatement := by
  intro last isLast
  obtain ⟨same, ends⟩ | ⟨same, _⟩ := close_cases tokens theEnd
  · rw [same] at isLast
    exact ends last isLast
  · rw [same, List.getLast?_concat] at isLast
    cases isLast
    rfl

theorem mem_close {token : Token} {tokens : List Token} (member : token ∈ tokens)
    (theEnd : Position) : token ∈ close tokens theEnd := by
  obtain ⟨same, _⟩ | ⟨same, _⟩ := close_cases tokens theEnd
  · rwa [same]
  · rw [same]
    exact List.mem_append_left _ member

theorem mem_of_mem_close {token : Token} {tokens : List Token} {theEnd : Position}
    (member : token ∈ close tokens theEnd) :
    token ∈ tokens ∨ token = ⟨.endOfStatement, "", 0, theEnd⟩ := by
  obtain ⟨same, _⟩ | ⟨same, _⟩ := close_cases tokens theEnd
  · rw [same] at member
    exact .inl member
  · rw [same] at member
    simpa using member

theorem Read.before_end {position : Position} {source : List Char} {tokens : List Token}
    (read : Read position source tokens) {token : Token} (member : token ∈ tokens) :
    token.position.offset + token.length ≤ (position.after source).offset := by
  obtain ⟨before, lexeme, after, rfl, _, rfl⟩ := read.placed token member
  simp only [ofLexeme, Position.offset_after, byteLength_append]
  omega

theorem Read.closed_ordered {position : Position} {source : List Char} {tokens : List Token}
    (read : Read position source tokens) :
    (close tokens (position.after source)).Pairwise Before := by
  obtain ⟨same, _⟩ | ⟨same, _⟩ := close_cases tokens (position.after source)
  · rw [same]
    exact read.ordered
  · rw [same, List.pairwise_append]
    refine ⟨read.ordered, List.pairwise_singleton _ _, ?_⟩
    intro token member theEnd last
    rw [List.mem_singleton.mp last]
    exact read.before_end member

theorem Read.covering {position : Position} {source : List Char} {tokens : List Token}
    (read : Read position source tokens) : ∀ token ∈ tokens, 0 < token.length := by
  intro token member
  obtain ⟨before, lexeme, after, _, next, rfl⟩ := read.placed token member
  obtain ⟨first, rest, spelled, _⟩ := ((Lexeme.next_ok_iff after lexeme).mp next).1.head
  rw [ofLexeme, spelled, byteLength_cons]
  exact Nat.add_pos_left first.utf8Size_pos _

theorem Read.tiles {file : String} {source : List Char} {tokens : List Token}
    (read : Read (.start file) source tokens) :
    Tiles source file (close tokens (.behind file source)) := by
  have ordered := read.closed_ordered
  rw [Position.start_after] at ordered
  refine ⟨ordered, ?placed, ?gaps, ?lineFeeds, close_ended _ _, tokens, read.covering,
    close_cases _ _⟩
  case placed =>
    intro token member
    obtain real | rfl := mem_of_mem_close member
    · obtain ⟨before, lexeme, after, split, _, rfl⟩ := read.placed token real
      exact ⟨before, lexeme.spelling, after, split, rfl, Position.start_after file before⟩
    · exact ⟨source, [], [], by simp, rfl, rfl⟩
  case gaps =>
    intro byte inside uncovered
    have lower : (Position.start file).offset ≤ byte := Nat.zero_le byte
    have upper : byte < (Position.start file).offset + byteLength source := by
      rwa [Position.start, Nat.zero_add]
    obtain ⟨token, member, covers⟩ | gap := read.covered_or_blank lower upper
    · exact absurd covers (uncovered token (mem_close member _))
    · obtain ⟨before, c, after, split, place, blank⟩ := gap
      rw [Position.start, Nat.zero_add] at place
      exact ⟨before, c, after, split, place, (Lexeme.isBlank_iff c).mp blank⟩
  case lineFeeds =>
    intro before after split
    obtain ⟨earlier, later, tokens, _⟩ := read.lineFeed split
    rw [Position.start_after] at tokens
    have member := tokens ▸ List.mem_append_right earlier List.mem_cons_self
    exact filter_covers ordered (mem_close member _) Nat.one_pos

/-- The tokens of a source tile it, and a fault has its place in it too. -/
theorem readAll_tiles (source file : String) :
    match readAll source file with
    | .ok tokens => Tiles source.toList file tokens
    | .error error => ∃ before after, source.toList = before ++ after ∧
        error.position = .behind file before := by
  obtain ⟨tokens, fault?, divided⟩ := exists_divided (.start file) source.toList
  rw [divided.readAll_eq]
  cases fault? with
  | none =>
      rw [Position.start_after]
      exact ((divided_none_iff _ _ _).mp divided).tiles
  | some error =>
      obtain ⟨before, after, split, place, _⟩ := divided.before_fault
      exact ⟨before, after, split, place.trans (Position.start_after file before)⟩

end Token
end LineScript
