import LineScript.Proofs.Division
import LineScript.Proofs.Layout

/-!
The two conventions for the end of a line. A source that cannot be read has its first fault at the
same line and column in either of them, and the fault is the same, but for a string whose line ends
directly after a backslash: there the carriage return is taken for the letter of an escape.
-/

namespace LineScript

/-- The source with a carriage return before each line feed. -/
def Source.crlf (source : List Char) : List Char :=
  source.flatMap fun c => if c = '\n' then ['\r', '\n'] else [c]

/-- A string stands at the front, and its line ends directly after a backslash that would begin an
escape. -/
def Lexeme.EscapesLineEnd (source : List Char) : Prop :=
  ∃ content body rest, Quoted content body ∧ source = '\x22' :: (body ++ '\\' :: '\n' :: rest)

/-- Such a string begins at the offset. -/
def Source.EscapesLineEndAt (source : List Char) (offset : Nat) : Prop :=
  ∃ before after, source = before ++ after ∧ byteLength before = offset ∧
    Lexeme.EscapesLineEnd after

/-- A text has one front of each length in bytes. -/
theorem front_eq_of_byteLength {front back other back' : List Char}
    (same : front ++ back = other ++ back') (length : byteLength front = byteLength other) :
    front = other := by
  induction front generalizing other with
  | nil =>
      cases other with
      | nil => rfl
      | cons c other =>
          have positive := c.utf8Size_pos
          rw [byteLength_nil, byteLength_cons] at length
          omega
  | cons c front ih =>
      cases other with
      | nil =>
          have positive := c.utf8Size_pos
          rw [byteLength_nil, byteLength_cons] at length
          omega
      | cons d other =>
          obtain ⟨rfl, onward⟩ := List.cons.inj same
          rw [byteLength_cons, byteLength_cons, Nat.add_left_cancel_iff] at length
          rw [ih onward length]

namespace Source

theorem crlf_append (front back : List Char) : crlf (front ++ back) = crlf front ++ crlf back :=
  List.flatMap_append

theorem crlf_newline (rest : List Char) : crlf ('\n' :: rest) = '\r' :: '\n' :: crlf rest :=
  rfl

theorem crlf_cons {c : Char} (inLine : c ≠ '\n') (rest : List Char) :
    crlf (c :: rest) = c :: crlf rest := by
  rw [crlf, List.flatMap_cons, if_neg inLine]
  rfl

theorem crlf_of_inLine {text : List Char} (inLine : '\n' ∉ text) : crlf text = text := by
  induction text with
  | nil => rfl
  | cons c text ih =>
      rw [List.mem_cons, not_or] at inLine
      rw [crlf_cons (Ne.symm inLine.1), ih inLine.2]

theorem carriageReturned_crlf (source : List Char) : CarriageReturned source (crlf source) := by
  induction source with
  | nil => exact .done
  | cons c source ih =>
      by_cases newline : c = '\n'
      · subst newline
        exact .newline 1 ih
      · rw [crlf_cons newline]
        exact .keep ih

theorem head?_crlf (source : List Char) :
    ∀ c ∈ (crlf source).head?, c = '\r' ∨ source.head? = some c := by
  cases source with
  | nil => exact fun c head => .inr head
  | cons first rest =>
      intro c head
      by_cases newline : first = '\n'
      · subst newline
        cases head
        exact .inl rfl
      · rw [crlf_cons newline] at head
        exact .inr head

end Source

theorem Position.SamePlace.crlf {position other : Position} (same : position.SamePlace other)
    (passed : List Char) :
    (position.after passed).SamePlace (other.after (Source.crlf passed)) := by
  induction passed generalizing position other with
  | nil => exact same
  | cons c passed ih =>
      by_cases newline : c = '\n'
      · subst newline
        exact ih (same.newline 1)
      · rw [Source.crlf_cons newline]
        exact ih (same.next c)

namespace Lexeme
open Source

theorem takeWhile_crlf (source : List Char) :
    (crlf source).takeWhile continuesWord = source.takeWhile continuesWord := by
  induction source with
  | nil => rfl
  | cons c source ih =>
      by_cases newline : c = '\n'
      · subst newline
        rfl
      · rw [crlf_cons newline, List.takeWhile_cons, List.takeWhile_cons, ih]

theorem LongestRun.crlf {source run : List Char} (longest : LongestRun source run) :
    LongestRun (crlf source) run := by
  rw [longestRun_iff] at longest ⊢
  rw [takeWhile_crlf, longest]

theorem Quoted.append {content body more body' : List Char} (quoted : Quoted content body)
    (quoted' : Quoted more body') : Quoted (content ++ more) (body ++ body') := by
  induction quoted with
  | nil => exact quoted'
  | plain quote backslash newline _ ih => exact .plain quote backslash newline ih
  | escaped escape _ ih => exact .escaped escape ih

/-- A string goes wrong in the same way where its line does not end directly after a backslash. A
carriage return before the end of the line belongs to the contents. -/
theorem BreaksOff.crlf {content body rest : List Char} {fault : LexicalFault}
    (quoted : Quoted content body) (broken : BreaksOff rest fault)
    (unescaped : ∀ later, rest ≠ '\\' :: '\n' :: later) :
    Next ('\x22' :: (body ++ crlf rest)) (.error fault) := by
  cases broken with
  | sourceEnds => exact .noText quoted .sourceEnds
  | @lineEnds rest =>
      have longer : Quoted (content ++ ['\r']) (body ++ ['\r']) :=
        quoted.append (.plain (by decide) (by decide) (by decide) .nil)
      rw [crlf_newline, List.append_cons]
      exact .noText longer .lineEnds
  | sourceEndsEscaped => exact .noText quoted .sourceEndsEscaped
  | lineEndsEscaped => exact absurd rfl (unescaped _)
  | noEscape newline unknown =>
      rw [crlf_cons (by decide), crlf_cons newline]
      exact .noText quoted (.noEscape newline unknown)

/-- A fault is the same for either end of the line, unless the end of the line is escaped. -/
theorem Next.crlf {source : List Char} {fault : LexicalFault} (next : Next source (.error fault))
    (unescaped : ¬ EscapesLineEnd source) : Next (crlf source) (.error fault) := by
  have digitInLine {first : Char} (digit : '0' ≤ first ∧ first ≤ '9') : first ≠ '\n' := by
    rintro rfl
    exact absurd digit (by decide)
  have noWord : ¬ WordStart '\r' := by
    rw [← startsWord_iff]
    decide
  cases next with
  | integerTooLarge digit run literal large =>
      have run := run.crlf
      rw [crlf_cons (digitInLine digit)] at run ⊢
      exact .integerTooLarge digit run literal large
  | noInteger digit run misfit =>
      have run := run.crlf
      rw [crlf_cons (digitInLine digit)] at run ⊢
      exact .noInteger digit run misfit
  | @noLabel rest misfit =>
      rw [crlf_cons (by decide)]
      refine .noLabel fun c head starts => ?_
      obtain rfl | head := head?_crlf rest c head
      · exact noWord starts
      · exact misfit c head starts
  | @noOperator rest misfit =>
      rw [crlf_cons (by decide)]
      refine .noOperator fun equals => ?_
      obtain other | head := head?_crlf rest '=' equals
      · cases other
      · exact misfit head
  | @noText content body rest fault quoted broken =>
      rw [crlf_cons (by decide), crlf_append, crlf_of_inLine quoted.no_newline]
      refine broken.crlf quoted ?_
      rintro later rfl
      exact unescaped ⟨content, body, later, quoted, rfl⟩
  | @unexpected first rest outside unknown =>
      have inLine : first ≠ '\n' := by
        rintro rfl
        exact unknown (by decide)
      rw [crlf_cons inLine]
      exact .unexpected outside unknown

/-- With a line feed alone the string is not closed. With a carriage return before it there is an
escape, and it is not supported. -/
theorem EscapesLineEnd.next {source : List Char} (escaped : EscapesLineEnd source) :
    Next source (.error .unterminatedString) ∧
      Next (Source.crlf source) (.error (.invalidEscape '\r')) := by
  obtain ⟨content, body, rest, quoted, rfl⟩ := escaped
  refine ⟨.noText quoted .lineEndsEscaped, ?_⟩
  rw [crlf_cons (by decide), crlf_append, crlf_of_inLine quoted.no_newline, crlf_cons (by decide)]
  exact .noText quoted (.noEscape (by decide) ((escape?_eq_none_iff '\r').mp rfl))

/-- A lexeme in a line is the same for either end of the line. -/
theorem Next.lexeme_crlf {lexeme : Lexeme} {remaining : List Char}
    (next : Next (lexeme.spelling ++ remaining) (.ok lexeme)) :
    Next (lexeme.spelling ++ Source.crlf remaining) (.ok lexeme) := by
  rw [next_ok_iff] at next ⊢
  exact ⟨next.1, (carriageReturned_crlf remaining).closed next.2⟩

end Lexeme

namespace Token
open Source

/-- What stands before a fault is divided in the same way for either end of the line. -/
theorem Divided.crlf {position : Position} {source : List Char} {tokens : List Token}
    {error : LexicalError} (divided : Divided position source tokens (some error)) :
    ∃ before after, source = before ++ after ∧ error.position = position.after before ∧
      Lexeme.Next after (.error error.fault) ∧
      ∀ fault, Lexeme.Next (crlf after) (.error fault) → ∀ position',
        ∃ others, Divided position' (crlf source) others
          (some ⟨fault, position'.after (crlf before)⟩) := by
  generalize faulty : some error = fault? at divided
  induction divided with
  | done => cases faulty
  | @blank position c source tokens fault? blank _ ih =>
      obtain ⟨before, after, rfl, place, next, onward⟩ := ih faulty
      have inLine : c ≠ '\n' := by
        rintro rfl
        cases blank
      refine ⟨c :: before, after, rfl, place, next, fun fault nextFault position' => ?_⟩
      obtain ⟨others, divided⟩ := onward fault nextFault (position'.next c)
      rw [crlf_cons inLine, crlf_cons inLine]
      exact ⟨others, .blank blank divided⟩
  | @lexeme position lexeme remaining tokens fault? next _ ih =>
      obtain ⟨before, after, rfl, place, nextFault, onward⟩ := ih faulty
      refine ⟨lexeme.spelling ++ before, after, by rw [List.append_assoc], ?_, nextFault, ?_⟩
      · rw [place, Position.after_append]
      · intro fault nextFault position'
        obtain ⟨written, _⟩ := (Lexeme.next_ok_iff _ _).mp next
        obtain rfl | ⟨_, inLine⟩ := written.newline_or_inLine
        · -- The carriage return is a blank before the lexeme that ends the line.
          obtain ⟨others, divided⟩ := onward fault nextFault (position'.after ['\r', '\n'])
          have ended := @Divided.lexeme (position'.next '\r') ⟨.endOfStatement, "", ['\n']⟩
            _ _ _ .newline divided
          exact ⟨_, .blank rfl ended⟩
        · obtain ⟨others, divided⟩ := onward fault nextFault (position'.after lexeme.spelling)
          rw [crlf_append lexeme.spelling, crlf_append lexeme.spelling, crlf_of_inLine inLine,
            Position.after_append]
          exact ⟨_, .lexeme next.lexeme_crlf divided⟩
  | @fault position source fault next =>
      cases faulty
      exact ⟨[], source, rfl, rfl, next, fun _ nextFault _ => ⟨[], .fault nextFault⟩⟩

/-- A source that cannot be read cannot be read with carriage returns before its line feeds either,
and its first fault stands at the same line and column. It is the same fault, with the same message
and hint, except where it is a string whose line ends directly after a backslash. -/
theorem readAll_crlf {source file : String} {error : LexicalError}
    (failed : readAll source file = .error error) :
    ∃ other, readAll (String.ofList (crlf source.toList)) file = .error other ∧
      error.position.SamePlace other.position ∧
      (¬ EscapesLineEndAt source.toList error.position.offset →
        other.fault = error.fault ∧ other.message = error.message ∧ other.hint? = error.hint?) ∧
      (EscapesLineEndAt source.toList error.position.offset →
        error.fault = .unterminatedString ∧ other.fault = .invalidEscape '\r') := by
  obtain ⟨tokens, divided⟩ := divided_of_readAll failed
  obtain ⟨before, after, split, place, next, onward⟩ := divided.crlf
  have offset : error.position.offset = byteLength before := by
    rw [place, Position.offset_after]
    exact Nat.zero_add _
  have here : EscapesLineEndAt source.toList error.position.offset ↔
      Lexeme.EscapesLineEnd after := by
    constructor
    · rintro ⟨before', after', split', length, escaped⟩
      rw [split] at split'
      obtain rfl := front_eq_of_byteLength split' (offset.symm.trans length.symm)
      rwa [List.append_cancel_left split']
    · exact fun escaped => ⟨before, after, split, offset.symm, escaped⟩
  have same : error.position.SamePlace ((Position.start file).after (crlf before)) :=
    place ▸ (Position.SamePlace.refl _).crlf before
  have fails {fault : LexicalFault} (nextFault : Lexeme.Next (crlf after) (.error fault)) :
      readAll (String.ofList (crlf source.toList)) file =
        .error ⟨fault, (Position.start file).after (crlf before)⟩ := by
    obtain ⟨others, divided⟩ := onward fault nextFault (.start file)
    rw [← String.toList_ofList (l := crlf source.toList)] at divided
    rw [divided.readAll_eq, orFault]
  rw [here]
  by_cases escaped : Lexeme.EscapesLineEnd after
  · obtain ⟨unclosed, invalid⟩ := escaped.next
    refine ⟨_, fails invalid, same, fun unescaped => absurd escaped unescaped, fun _ => ?_⟩
    exact ⟨Except.error.inj (next.unique unclosed), rfl⟩
  · refine ⟨_, fails (next.crlf escaped), same, fun _ => ⟨rfl, rfl, rfl⟩, ?_⟩
    exact fun escaped' => absurd escaped' escaped

theorem readAll_crlf_escaped :
    let source := "x = \"a\\\n"
    ∃ error other, readAll source "<input>" = .error error ∧
      readAll (String.ofList (crlf source.toList)) "<input>" = .error other ∧
      error.position.SamePlace other.position ∧
      error.fault = .unterminatedString ∧ other.fault = .invalidEscape '\r' := by
  intro source
  have failed : readAll "x = \"a\\\n" "<input>" =
      .error ⟨.unterminatedString, ⟨"<input>", 1, 5, 4⟩⟩ := by decide +kernel
  obtain ⟨other, failed', same, _, differs⟩ := readAll_crlf failed
  have escaped : EscapesLineEndAt "x = \"a\\\n".toList 4 := by
    refine ⟨"x = ".toList, "\"a\\\n".toList, by decide, by decide, ['a'], ['a'], [], ?_, by decide⟩
    exact .plain (by decide) (by decide) (by decide) .nil
  exact ⟨_, other, failed, failed', same, differs escaped⟩

end Token
end LineScript
