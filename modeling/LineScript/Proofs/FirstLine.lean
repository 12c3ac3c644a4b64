import LineScript.Proofs.Division

/-!
What stands at the front of a source is decided by its first line. Sources with the same first line
begin with the same lexeme or fault, whatever the line feed after it is followed by, and even if the
source ends without one.
-/

namespace LineScript

/-- The text before the first line feed, or all of it if there is none. -/
def firstLine (source : List Char) : List Char :=
  source.takeWhile (· ≠ '\n')

theorem firstLine_append {front : List Char} (inLine : '\n' ∉ front) (back : List Char) :
    firstLine (front ++ back) = front ++ firstLine back := by
  refine List.takeWhile_append_of_pos fun c member => ?_
  rw [decide_eq_true_eq]
  rintro rfl
  exact inLine member

theorem firstLine_cons {c : Char} (inLine : c ≠ '\n') (rest : List Char) :
    firstLine (c :: rest) = c :: firstLine rest :=
  @firstLine_append [c] (by simpa using inLine.symm) rest

theorem firstLine_eq_nil_iff (source : List Char) :
    firstLine source = [] ↔ source = [] ∨ ∃ rest, source = '\n' :: rest := by
  cases source with
  | nil => simp [firstLine]
  | cons c rest =>
      by_cases newline : c = '\n'
      · simp [firstLine, newline]
      · simp [firstLine_cons newline, newline]

theorem firstLine_append_newline (source more : List Char) :
    firstLine (source ++ '\n' :: more) = firstLine source := by
  induction source with
  | nil => rfl
  | cons c rest ih =>
      by_cases newline : c = '\n'
      · simp [firstLine, newline]
      · rw [List.cons_append, firstLine_cons newline, firstLine_cons newline, ih]

theorem firstLine_append_of_mem {source : List Char} (newline : '\n' ∈ source) (more : List Char) :
    firstLine (source ++ more) = firstLine source := by
  obtain ⟨front, back, rfl⟩ := List.append_of_mem newline
  rw [List.append_assoc, List.cons_append, firstLine_append_newline, firstLine_append_newline]

/-- A text without line feeds is a front of a source when it is one of its first line. -/
theorem prefix_firstLine_iff {front : List Char} (inLine : '\n' ∉ front) (source : List Char) :
    front <+: firstLine source ↔ front <+: source := by
  constructor
  · exact fun within => within.trans (List.takeWhile_prefix _)
  · rintro ⟨back, rfl⟩
    rw [firstLine_append inLine]
    exact List.prefix_append front _

theorem exists_append_of_firstLine {front back other : List Char} (inLine : '\n' ∉ front)
    (same : firstLine other = firstLine (front ++ back)) :
    ∃ rest, other = front ++ rest ∧ firstLine rest = firstLine back := by
  rw [firstLine_append inLine] at same
  obtain ⟨rest, rfl⟩ := (prefix_firstLine_iff inLine other).mp ⟨_, same.symm⟩
  rw [firstLine_append inLine] at same
  exact ⟨rest, rfl, List.append_cancel_left same⟩

theorem exists_cons_of_firstLine {c : Char} {back other : List Char} (inLine : c ≠ '\n')
    (same : firstLine other = firstLine (c :: back)) :
    ∃ rest, other = c :: rest ∧ firstLine rest = firstLine back :=
  @exists_append_of_firstLine [c] back other (by simpa using inLine.symm) same

theorem head?_of_firstLine {source other : List Char} (same : firstLine other = firstLine source) :
    ∀ c ∈ other.head?, c = '\n' ∨ source.head? = some c := by
  intro c head
  obtain ⟨rest, rfl⟩ := List.head?_eq_some_iff.mp head
  by_cases newline : c = '\n'
  · exact .inl newline
  · obtain ⟨rest, rfl, _⟩ := exists_cons_of_firstLine newline same.symm
    exact .inr rfl

/-- What is put after the source leaves each of its lines as it is: the last line is ended, or the
addition ends it. -/
def Apart (source more : List Char) : Prop :=
  ∀ rest, rest <:+ source → rest ≠ [] → firstLine (rest ++ more) = firstLine rest

theorem Apart.of_append {front back more : List Char} (apart : Apart (front ++ back) more) :
    Apart back more :=
  fun rest isSuffix => apart rest (isSuffix.trans (List.suffix_append front back))

theorem Apart.newline (source more : List Char) : Apart source ('\n' :: more) :=
  fun rest _ _ => firstLine_append_newline rest more

namespace Lexeme

theorem LongestFront.of_firstLine {Fits : List Char → Prop} {source other front : List Char}
    (longest : LongestFront Fits source front) (inLine : ∀ front, Fits front → '\n' ∉ front)
    (same : firstLine other = firstLine source) : LongestFront Fits other front := by
  have fronts (front : List Char) (fits : Fits front) : front <+: other ↔ front <+: source := by
    rw [← prefix_firstLine_iff (inLine front fits), same, prefix_firstLine_iff (inLine front fits)]
  refine ⟨(fronts front longest.fits).mpr longest.isFront, longest.fits, ?_⟩
  intro front isFront fits
  exact longest.longest front ((fronts front fits).mp isFront) fits

theorem LongestRun.of_firstLine {source other run : List Char} (longest : LongestRun source run)
    (same : firstLine other = firstLine source) : LongestRun other run := by
  refine LongestFront.of_firstLine longest ?_ same
  intro front inside member
  have word := (continuesWord_iff '\n').mpr (inside '\n' member)
  cases word

theorem BreaksOff.of_firstLine {source other : List Char} {fault : LexicalFault}
    (broken : BreaksOff source fault) (same : firstLine other = firstLine source) :
    BreaksOff other fault := by
  have ended {rest : List Char} (empty : firstLine rest = []) :
      BreaksOff rest .unterminatedString ∧ BreaksOff ('\\' :: rest) .unterminatedString := by
    obtain rfl | ⟨rest, rfl⟩ := (firstLine_eq_nil_iff rest).mp empty
    · exact ⟨.sourceEnds, .sourceEndsEscaped⟩
    · exact ⟨.lineEnds, .lineEndsEscaped⟩
  cases broken with
  | sourceEnds | lineEnds => exact (ended same).1
  | sourceEndsEscaped | lineEndsEscaped =>
      obtain ⟨rest, rfl, empty⟩ := exists_cons_of_firstLine (by decide) same
      exact (ended empty).2
  | noEscape newline unknown =>
      obtain ⟨rest, rfl, onward⟩ := exists_cons_of_firstLine (by decide) same
      obtain ⟨rest, rfl, _⟩ := exists_cons_of_firstLine newline onward
      exact .noEscape newline unknown

/-- The lexeme or fault at the front of a source is decided by the first line. -/
theorem Next.of_firstLine {source other : List Char} {outcome : Except LexicalFault Lexeme}
    (next : Next source outcome) (nonempty : firstLine source ≠ [])
    (same : firstLine other = firstLine source) : Next other outcome := by
  obtain ⟨first, rest, rfl⟩ : ∃ first rest, source = first :: rest :=
    List.exists_cons_of_ne_nil fun empty => not_next_nil outcome (empty ▸ next)
  have inLine : first ≠ '\n' := by
    rintro rfl
    exact nonempty rfl
  obtain ⟨rest', rfl, onward⟩ := exists_cons_of_firstLine inLine same
  have noWord : ¬ WordStart '\n' := by
    rw [← startsWord_iff]
    decide
  cases next with
  | newline => exact absurd rfl inLine
  | word starts run kind => exact .word starts (run.of_firstLine same) kind
  | integer digit run literal small => exact .integer digit (run.of_firstLine same) literal small
  | integerTooLarge digit run literal large =>
      exact .integerTooLarge digit (run.of_firstLine same) literal large
  | noInteger digit run misfit => exact .noInteger digit (run.of_firstLine same) misfit
  | @label first rest name starts run =>
      have inLine : first ≠ '\n' := fun newline => noWord (newline ▸ starts)
      obtain ⟨rest', rfl, _⟩ := exists_cons_of_firstLine inLine onward
      exact .label starts (run.of_firstLine onward)
  | noLabel misfit =>
      refine .noLabel fun c head starts => ?_
      obtain rfl | head := head?_of_firstLine onward c head
      · exact noWord starts
      · exact misfit c head starts
  | operator isOperator longest =>
      refine .operator isOperator (longest.of_firstLine ?_ same)
      rintro front ⟨kind, isOperator⟩
      have inLine := (operators_inLine _ ((operator_iff front kind).mp isOperator)).2
      rwa [String.toList_ofList] at inLine
  | noOperator misfit =>
      refine .noOperator fun equals => ?_
      obtain newline | head := head?_of_firstLine onward '=' equals
      · cases newline
      · exact misfit head
  | @text content body rest quoted =>
      have inLine : '\n' ∉ body ++ ['\x22'] := by simp [quoted.no_newline]
      rw [List.append_cons] at onward
      obtain ⟨rest', rfl, _⟩ := exists_append_of_firstLine inLine onward
      rw [List.append_assoc]
      exact .text quoted
  | noText quoted broken =>
      obtain ⟨rest', rfl, ending⟩ := exists_append_of_firstLine quoted.no_newline onward
      exact .noText quoted (broken.of_firstLine ending)
  | unexpected outside unknown => exact .unexpected outside unknown

theorem Next.append {source more : List Char} {outcome : Except LexicalFault Lexeme}
    (next : Next source outcome) (apart : Apart source more) : Next (source ++ more) outcome := by
  have nonempty : source ≠ [] := fun empty => not_next_nil outcome (empty ▸ next)
  have same := apart source (List.suffix_refl source) nonempty
  by_cases empty : firstLine source = []
  · obtain rfl | ⟨rest, rfl⟩ := (firstLine_eq_nil_iff source).mp empty
    · exact absurd rfl nonempty
    · cases scan_of_next next
      exact .newline
  · exact next.of_firstLine empty same

end Lexeme

namespace Token

/-- A source, and what is put after it. A fault of the first hides all that comes later. -/
theorem Divided.append {position : Position} {source more : List Char} {tokens later : List Token}
    {fault? later? : Option LexicalError} (divided : Divided position source tokens fault?)
    (apart : Apart source more) (onward : Divided (position.after source) more later later?) :
    Divided position (source ++ more) (tokens ++ fault?.elim later fun _ => [])
      (fault?.or later?) := by
  induction divided with
  | done => exact onward
  | @blank position c source tokens fault? blank _ ih =>
      exact .blank blank (ih (@Apart.of_append [c] source more apart) onward)
  | @lexeme position lexeme remaining tokens fault? next _ ih =>
      have next := next.append apart
      rw [Position.after_append] at onward
      rw [List.append_assoc] at next ⊢
      exact .lexeme next (ih apart.of_append onward)
  | fault next => exact .fault (next.append apart)

end Token
end LineScript
