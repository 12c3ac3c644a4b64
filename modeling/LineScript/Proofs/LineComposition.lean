import LineScript.Proofs.Displacement
import LineScript.Proofs.FirstLine
import LineScript.Proofs.Tiling

/-!
Reading goes line by line. What a source ended by a line feed is read as does not depend on what is
put after it, and what is put after it is read as it would be alone, further down.
-/

namespace LineScript

/-- A text that is empty or ends in a line feed. -/
def EndsLine (source : List Char) : Prop :=
  ∀ last ∈ source.getLast?, last = '\n'

theorem EndsLine.of_append (front : List Char) {back : List Char}
    (ends : EndsLine (front ++ back)) : EndsLine back := by
  intro last isLast
  refine ends last ?_
  rw [List.getLast?_append, Option.mem_def.mp isLast]
  rfl

theorem EndsLine.newline_mem {source : List Char} (ends : EndsLine source)
    (nonempty : source ≠ []) : '\n' ∈ source := by
  have last := ends _ (List.getLast?_eq_some_getLast nonempty)
  rw [← last]
  exact List.getLast_mem nonempty

/-- Each line of such a text is ended, so what is put after it begins lines of its own. -/
theorem EndsLine.apart {source : List Char} (ends : EndsLine source) (more : List Char) :
    Apart source more := by
  rintro rest ⟨front, rfl⟩ nonempty
  exact firstLine_append_of_mem ((ends.of_append front).newline_mem nonempty) more

theorem endsLine_newline (source : List Char) : EndsLine (source ++ ['\n']) := by
  intro last isLast
  rw [List.getLast?_concat] at isLast
  cases isLast
  rfl

namespace Token

/-- A line feed at the end of a source is its last token. -/
theorem Read.stops {position : Position} {front : List Char} {tokens : List Token}
    (read : Read position (front ++ ['\n']) tokens) :
    ∃ earlier stop, tokens = earlier ++ [stop] ∧ stop.kind = .endOfStatement := by
  obtain ⟨earlier, later, rfl, onward⟩ := read.lineFeed rfl
  obtain rfl := (read_nil_iff _ later).mp onward
  exact ⟨earlier, _, rfl, rfl⟩

theorem start_after_line (file : String) (front : List Char) :
    (Position.start file).after (front ++ ['\n']) =
      (Position.start file).below (front ++ ['\n']) := by
  have column : (front ++ ['\n']).rtakeWhile (· ≠ '\n') = [] :=
    List.rtakeWhile_concat_neg _ _ _ (by decide)
  rw [Position.start_after, Position.behind, column, Position.below, Position.start, Nat.zero_add]
  rfl

theorem readAll_after_line (front back file : String) :
    readAll (front ++ "\n" ++ back) file = do
      let first ← readAll (front ++ "\n") file
      let second ← (readAll back file).mapError
        (LexicalError.mapPosition (.below (front ++ "\n").toList))
      return first ++ second.map (Token.mapPosition (.below (front ++ "\n").toList)) := by
  have line : (front ++ "\n").toList = front.toList ++ ['\n'] := String.toList_append
  have place : (Position.start file).after (front ++ "\n").toList =
      (Position.start file).below (front ++ "\n").toList := by
    rw [line, start_after_line]
  have shifts := Position.below_next (front ++ "\n").toList
  obtain ⟨tokens, fault?, divided⟩ := exists_divided (.start file) (front ++ "\n").toList
  obtain ⟨later, later?, onward⟩ := exists_divided (.start file) back.toList
  have moved := onward.mapPosition shifts
  rw [← place] at moved
  have whole := divided.append ((line ▸ endsLine_newline front.toList).apart _) moved
  rw [← String.toList_append] at whole
  rw [whole.readAll_eq, divided.readAll_eq, onward.readAll_eq]
  cases fault? with
  | some error => rfl
  | none =>
      cases later? with
      | some error => rfl
      | none =>
          have read := (divided_none_iff _ _ _).mp divided
          rw [line] at read
          obtain ⟨earlier, stop, rfl, ends⟩ := read.stops
          have theEnd : (Position.start file).after (front ++ "\n" ++ back).toList =
              ((Position.start file).after back.toList).below (front ++ "\n").toList := by
            rw [String.toList_append, Position.after_append, place, Position.map_after shifts]
          refine congrArg Except.ok ?_
          rw [Option.elim_none, theEnd, List.append_assoc, List.singleton_append,
            close_append ends, close_append ends, close_mapPosition, List.append_assoc]
          rfl

end Token

namespace Line

/-- Lines are cut the same way whatever stands before their first token. -/
theorem cut_append_lines {tokens : List Token}
    (ends : ∀ last ∈ tokens.getLast?, last.kind = .endOfStatement) (following : List Token) :
    cut (tokens ++ following) = cut tokens ++ cut following := by
  induction tokens with
  | nil => rfl
  | cons token tokens ih =>
      have onward : ∀ last ∈ tokens.getLast?, last.kind = .endOfStatement := by
        intro last isLast
        refine ends last ?_
        rw [List.getLast?_cons, Option.mem_def.mp isLast]
        rfl
      rw [List.cons_append, cut, cut, ih onward]
      split
      · rfl
      · next inLine =>
          cases tokens with
          | nil => exact absurd (ends token rfl) inLine
          | cons next tokens =>
              obtain ⟨line, lines, first, _⟩ := cut_cons next tokens
              rw [first]
              rfl

theorem Reads.append {lines more : List (List Token)} {found others : List Statement}
    (reads : Reads lines found) (onward : Reads more others) :
    Reads (lines ++ more) (found ++ others) := by
  rw [Reads, List.filter_append]
  exact List.rel_append reads onward

theorem FailsAt.append_left {lines : List (List Token)} {position : Position}
    (fails : FailsAt lines position) (more : List (List Token)) :
    FailsAt (lines ++ more) position := by
  obtain ⟨before, line, after, first, rfl, rest⟩ := fails
  exact ⟨before, line, after ++ more, first, by simp, rest⟩

theorem FailsAt.append_right {lines more : List (List Token)} {position : Position}
    (fails : FailsAt more position) (fits : ∀ line ∈ lines, Fits line) :
    FailsAt (lines ++ more) position := by
  induction lines with
  | nil => exact fails
  | cons line lines ih =>
      rw [List.forall_mem_cons] at fits
      exact (ih fits.2).cons fits.1

end Line

namespace Program
open Line

theorem ofTokens_append {tokens : List Token}
    (ends : ∀ last ∈ tokens.getLast?, last.kind = .endOfStatement) (following : List Token) :
    ofTokens (tokens ++ following) = do
      let front ← ofTokens tokens
      let back ← ofTokens following
      return front ++ back := by
  obtain ⟨front, reads, read⟩ | ⟨position, fails, read⟩ := ofTokens_lines tokens
  · obtain ⟨back, reads', read'⟩ | ⟨position, fails, read'⟩ := ofTokens_lines following
    · have whole := reads.append reads'
      rw [← cut_append_lines ends] at whole
      rw [ofTokens_of_reads whole, read, read', ← Array.toList_append]
      rfl
    · have whole := fails.append_right reads.fits
      rw [← cut_append_lines ends] at whole
      rw [ofTokens_of_failsAt whole, read, read']
      rfl
  · have whole := fails.append_left (cut following)
    rw [← cut_append_lines ends] at whole
    rw [ofTokens_of_failsAt whole, read]
    rfl

/-- Both phases go line by line: after lines that are ended by a line feed, a source has the tokens,
the statements or the error that it has alone, as many lines and bytes further down. -/
theorem readAll_ofTokens_by_lines (front back file : String) :
    (Token.readAll (front ++ "\n" ++ back) file = do
      let first ← Token.readAll (front ++ "\n") file
      let second ← (Token.readAll back file).mapError
        (LexicalError.mapPosition (.below (front ++ "\n").toList))
      return first ++ second.map (Token.mapPosition (.below (front ++ "\n").toList))) ∧
    ∀ first second, Token.readAll (front ++ "\n") file = .ok first →
      Token.readAll back file = .ok second →
      ∃ whole, Token.readAll (front ++ "\n" ++ back) file = .ok whole ∧
        ofTokens whole = do
          let statements ← ofTokens first
          let others ← (ofTokens second).mapError
            (InvalidStatement.mapPosition (.below (front ++ "\n").toList))
          return statements ++
            others.map (Statement.mapPosition (.below (front ++ "\n").toList)) := by
  have tokens := Token.readAll_after_line front back file
  refine ⟨tokens, ?_⟩
  intro first second readFirst readSecond
  rw [readFirst, readSecond] at tokens
  refine ⟨_, tokens, ?_⟩
  have ends : ∀ last ∈ first.getLast?, last.kind = .endOfStatement := by
    obtain ⟨found, _, rfl⟩ := (Token.readAll_eq_ok_iff _ _ _).mp readFirst
    exact Token.close_ended _ _
  rw [ofTokens_append ends, ofTokens_mapPosition]
  cases ofTokens first with
  | error error => rfl
  | ok statements => cases ofTokens second <;> rfl

end Program
end LineScript
