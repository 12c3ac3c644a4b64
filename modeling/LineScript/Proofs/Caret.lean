import LineScript.Diagnostic
import LineScript.Proofs.LineComposition

/-!
The line that a message echoes, and the caret under it. For a place of the source that stands before
a character other than a line feed or a carriage return, the caret is under that character.
-/

namespace LineScript
namespace Diagnostic

/-- What a message shows of the source: the line of that number with the carriage returns at its end
trimmed off, and under it the caret, behind a padding that repeats the tabs of the line. -/
structure Echoes (diagnostic : Diagnostic) (source : String) (line echoed padding : List Char) :
    Prop where
  numbered : 0 < diagnostic.position.line
  isLine : (source.toList.splitOn '\n')[diagnostic.position.line - 1]? = some line
  trimmed : echoed = line.rdropWhile (· = '\r')
  text : diagnostic.present source =
    "| An error occurred during " ++ diagnostic.phase.name ++ ":\n|  File " ++
      diagnostic.position.file ++ ", line " ++ Numeral.ofNat diagnostic.position.line ++ " col " ++
      Numeral.ofNat diagnostic.position.column ++ "\n|\n|  " ++ String.ofList echoed ++ "\n|  " ++
      String.ofList padding ++ "^ " ++ diagnostic.message ++
      match diagnostic.hint? with
      | some hint => s!"\n|  ? {hint}"
      | none => ""
  column : 0 < diagnostic.position.column ∧ diagnostic.position.column ≤ echoed.length
  padded : padding.length = diagnostic.position.column - 1
  tabs : ∀ index < diagnostic.position.column - 1,
    padding[index]? = some (if echoed[index]? = some '\t' then '\t' else ' ')

/-- Dropping lines leaves a source at the beginning of the line of that number. -/
theorem getElem?_splitOn (source : List Char) (count : Nat) (inside : count ≤ source.count '\n') :
    (source.splitOn '\n')[count]? = some ((dropLines count source).takeWhile (· ≠ '\n')) := by
  induction source generalizing count with
  | nil =>
      obtain rfl := Nat.le_zero.mp inside
      rfl
  | cons c source ih =>
      rw [List.splitOn_cons_eq_if_modifyHead]
      by_cases newline : c = '\n'
      · subst newline
        cases count with
        | zero => rfl
        | succ count =>
            rw [List.count_cons_self] at inside
            exact ih count (Nat.le_of_succ_le_succ inside)
      · rw [List.count_cons_of_ne newline] at inside
        rw [if_neg (by simp [newline]), List.getElem?_modifyHead]
        cases count with
        | zero =>
            have first := ih 0 (Nat.zero_le _)
            rw [first]
            cases source <;> simp [dropLines, newline]
        | succ count =>
            rw [ih (count + 1) inside, dropLines, if_neg newline]
            rfl

theorem dropLines_endsLine {front : List Char} (ends : EndsLine front) (rest : List Char) :
    dropLines (front.count '\n') (front ++ rest) = rest := by
  induction front with
  | nil => cases rest <;> rfl
  | cons c front ih =>
      have onward := ends.of_append [c]
      by_cases newline : c = '\n'
      · subst newline
        rw [List.count_cons_self, List.cons_append, dropLines, if_pos rfl, ih onward]
      · have nonempty : front ≠ [] := by
          rintro rfl
          exact newline (ends c rfl)
        have later := List.count_pos_iff.mpr (onward.newline_mem nonempty)
        obtain ⟨count, lines⟩ := Nat.exists_eq_add_one_of_ne_zero later.ne'
        rw [lines] at ih
        rw [List.count_cons_of_ne newline, lines, List.cons_append, dropLines, if_neg newline,
          ih onward]

theorem endsLine_rdropWhile (text : List Char) : EndsLine (text.rdropWhile (· ≠ '\n')) := by
  intro last isLast
  obtain ⟨nonempty, rfl⟩ := List.mem_getLast?_eq_getLast isLast
  have stops := List.rdropWhile_last_not _ text nonempty
  rwa [decide_eq_true_eq, Decidable.not_not] at stops

theorem newline_notMem_rtakeWhile (text : List Char) : '\n' ∉ text.rtakeWhile (· ≠ '\n') := by
  intro member
  have inLine := List.mem_rtakeWhile_imp member
  rw [decide_eq_true_eq] at inLine
  exact inLine rfl

/-- What is left of a text, and what follows it, when the lines that end in it are dropped. -/
theorem dropLines_count (before rest : List Char) :
    dropLines (before.count '\n') (before ++ rest) = before.rtakeWhile (· ≠ '\n') ++ rest := by
  have split : before.rdropWhile (· ≠ '\n') ++ before.rtakeWhile (· ≠ '\n') = before :=
    List.rdropWhile_append_rtakeWhile
  have lines : before.count '\n' = (before.rdropWhile (· ≠ '\n')).count '\n' := by
    conv_lhs => rw [← split]
    rw [List.count_append, List.count_eq_zero.mpr (newline_notMem_rtakeWhile before), Nat.add_zero]
  have whole : before ++ rest =
      before.rdropWhile (· ≠ '\n') ++ (before.rtakeWhile (· ≠ '\n') ++ rest) := by
    rw [← List.append_assoc, split]
  rw [lines, whole, dropLines_endsLine (endsLine_rdropWhile before)]

/-- The line of a character that is no line feed: what stands before it on the line, and so on. -/
theorem line_of_split (before : List Char) {c : Char} (inLine : c ≠ '\n') (after : List Char) :
    (dropLines (before.count '\n') (before ++ c :: after)).takeWhile (· ≠ '\n') =
      before.rtakeWhile (· ≠ '\n') ++ c :: after.takeWhile (· ≠ '\n') := by
  have front : ∀ d ∈ before.rtakeWhile (· ≠ '\n'), decide (d ≠ '\n') = true := by
    intro d member
    exact decide_eq_true fun newline => newline_notMem_rtakeWhile before (newline ▸ member)
  rw [dropLines_count, List.takeWhile_append_of_pos front, List.takeWhile_cons_of_pos]
  rwa [decide_eq_true_eq]

theorem rdropWhile_append_cons {p : Char → Bool} {c : Char} (keeps : p c = false)
    (front back : List Char) :
    (front ++ c :: back).rdropWhile p = front ++ c :: back.rdropWhile p := by
  induction back using List.reverseRecOn with
  | nil => rw [List.rdropWhile_concat_neg _ _ _ (by simp [keeps])]; rfl
  | append_singleton back d ih =>
      rw [← List.cons_append, ← List.append_assoc, List.rdropWhile_concat, List.rdropWhile_concat,
        ih]
      split
      · rfl
      · simp

theorem length_padding {text : List Char} {column : Nat} (inside : column - 1 ≤ text.length) :
    (padding text column).length = column - 1 := by
  rw [padding, List.length_map, List.length_take, Nat.min_eq_left inside]

theorem getElem?_padding {text : List Char} {column index : Nat}
    (inside : column - 1 ≤ text.length) (before : index < column - 1) :
    (padding text column)[index]? = some (if text[index]? = some '\t' then '\t' else ' ') := by
  have onLine : index < text.length := Nat.lt_of_lt_of_le before inside
  rw [padding, List.getElem?_map, List.getElem?_take_of_lt before, List.getElem?_eq_getElem onLine]
  simp only [Option.map_some, Option.some.injEq]

/-- A message about a place that stands before a visible character echoes the line of that character
and has the caret under it. -/
theorem echoes_of_behind {diagnostic : Diagnostic} {source file : String} {before after : List Char}
    {c : Char} (split : source.toList = before ++ c :: after)
    (place : diagnostic.position = .behind file before) (inLine : c ≠ '\n') (visible : c ≠ '\r') :
    ∃ line echoed padding, diagnostic.Echoes source line echoed padding ∧
      echoed[diagnostic.position.column - 1]? = some c := by
  have number : diagnostic.position.line - 1 = before.count '\n' := by
    rw [place]
    exact Nat.add_sub_cancel_left _ _
  have column : diagnostic.position.column - 1 = (before.rtakeWhile (· ≠ '\n')).length := by
    rw [place]
    exact Nat.add_sub_cancel_left _ _
  have positive : 0 < diagnostic.position.line ∧ 0 < diagnostic.position.column := by
    rw [place]
    exact ⟨Nat.add_pos_left Nat.one_pos _, Nat.add_pos_left Nat.one_pos _⟩
  have isLine := getElem?_splitOn source.toList (diagnostic.position.line - 1) (by
    simp [number, split])
  have echo : sourceLine source diagnostic.position.line =
      before.rtakeWhile (· ≠ '\n') ++ c :: (after.takeWhile (· ≠ '\n')).rdropWhile (· = '\r') := by
    rw [sourceLine, number, split, line_of_split before inLine]
    exact rdropWhile_append_cons (decide_eq_false visible) _ _
  have inside : diagnostic.position.column - 1 <
      (sourceLine source diagnostic.position.line).length := by
    rw [echo, column, List.length_append, List.length_cons]
    omega
  refine ⟨_, sourceLine source diagnostic.position.line, _,
    ⟨positive.1, isLine, rfl, rfl, ⟨positive.2, Nat.le_of_pred_lt inside⟩,
      length_padding inside.le, fun _ => getElem?_padding inside.le⟩, ?_⟩
  rw [echo, column, List.getElem?_append_right (Nat.le_refl _), Nat.sub_self]
  rfl

end Diagnostic
end LineScript
