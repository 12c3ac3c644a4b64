import LineScript.Lexeme
import LineScript.Proofs.Literal
import Mathlib.Data.List.TakeWhile

/-!
The lexicon: which lexemes there are, apart from how they are scanned. A lexeme is what it is by its
spelling, and it ends where the text after it cannot go on with it.
-/

namespace LineScript
namespace Lexeme

/-- A run of word characters that begins as a word does. -/
def IsWord (word : List Char) : Prop :=
  ∃ first rest, word = first :: rest ∧ startsWord first = true ∧
    ∀ c ∈ rest, continuesWord c = true

/-- The letters that a backslash can stand before, each with the character that both stand for. -/
def escapes : List (Char × Char) :=
  [('\x22', '\x22'), ('\\', '\\'), ('n', '\n'), ('t', '\t'), ('r', '\r'), ('0', '\x00')]

/-- A text and a way to write it between quotes. -/
inductive Quoted : List Char → List Char → Prop
  | nil : Quoted [] []
  | plain {c : Char} {content body : List Char} : c ≠ '\x22' → c ≠ '\\' → c ≠ '\n' →
      Quoted content body → Quoted (c :: content) (c :: body)
  | escaped {letter c : Char} {content body : List Char} : (letter, c) ∈ escapes →
      Quoted content body → Quoted (c :: content) ('\\' :: letter :: body)

/-- The lexemes of the language. -/
inductive Written : Lexeme → Prop
  | newline : Written ⟨.endOfStatement, "", ['\n']⟩
  | word {word : List Char} : IsWord word →
      Written ⟨wordKind (String.ofList word), String.ofList word, word⟩
  | integer {numeral : List Char} {value : Nat} : Numeral.Literal numeral value →
      value ≤ Int64.maxValue.toNatClampNeg → Written ⟨.integer, Numeral.ofNat value, numeral⟩
  | label {name : List Char} : IsWord name → Written ⟨.label, String.ofList name, ':' :: name⟩
  | text {content body : List Char} : Quoted content body →
      Written ⟨.text, String.ofList content, '\x22' :: (body ++ ['\x22'])⟩
  | operator {spelling : String} {kind : Token.Kind} : (spelling, kind) ∈ operators →
      Written ⟨kind, spelling, spelling.toList⟩

/-- The text after a lexeme does not go on with it. -/
def Closed (lexeme : Lexeme) (following : List Char) : Prop :=
  match lexeme.kind with
  | .identifier | .keyword _ | .integer | .label =>
      ∀ c ∈ following.head?, continuesWord c = false
  | .assign | .comparison .lt | .comparison .gt => following.head? ≠ some '='
  | _ => True

theorem escape?_eq_some_iff (letter c : Char) :
    escape? letter = some c ↔ (letter, c) ∈ escapes := by
  constructor
  · intro found
    rw [escape?] at found
    split at found
    · next same =>
        cases found
        obtain rfl | rfl := same <;> decide
    split at found
    · next same => cases found; subst same; decide
    split at found
    · next same => cases found; subst same; decide
    split at found
    · next same => cases found; subst same; decide
    split at found
    · next same => cases found; subst same; decide
    · cases found
  · have all : ∀ entry ∈ escapes, escape? entry.1 = some entry.2 := by decide
    exact all (letter, c)

theorem quoted_of_scanString {content spelling source remaining : List Char} {lexeme : Lexeme}
    (scanned : scanString content spelling source = .ok (lexeme, remaining)) :
    ∃ more body, source = body ++ '\x22' :: remaining ∧ Quoted more body ∧
      lexeme = ⟨.text, String.ofList (content.reverse ++ more),
        spelling.reverse ++ (body ++ ['\x22'])⟩ := by
  fun_induction scanString content spelling source with
  | case1 content spelling rest =>
      cases scanned
      exact ⟨[], [], rfl, .nil, by simp⟩
  | case2 | case4 | case5 | case7 => cases scanned
  | case3 content spelling letter rest _ c found ih =>
      obtain ⟨more, body, rfl, quoted, rfl⟩ := ih scanned
      have escape := (escape?_eq_some_iff letter c).mp found
      exact ⟨c :: more, '\\' :: letter :: body, rfl, .escaped escape quoted, by simp⟩
  | case6 content spelling c rest quote _ plain ih =>
      obtain ⟨more, body, rfl, quoted, rfl⟩ := ih scanned
      simp only [not_or] at plain
      exact ⟨c :: more, c :: body, rfl, .plain quote plain.2 plain.1 quoted, by simp⟩

/-- The scan of a string passes over contents that are in order. -/
theorem scanString_quoted {more body : List Char} (quoted : Quoted more body)
    (content spelling rest : List Char) :
    scanString content spelling (body ++ rest) =
      scanString (more.reverse ++ content) (body.reverse ++ spelling) rest := by
  induction quoted generalizing content spelling with
  | nil => rfl
  | @plain c more body quote backslash newline _ ih =>
      rw [List.cons_append, scanString, if_neg (by simp [newline, backslash]), ih]
      · simp
      · exact quote
      · rintro _ _ rfl _
        exact absurd rfl backslash
  | @escaped letter c more body escape _ ih =>
      have found := (escape?_eq_some_iff letter c).mpr escape
      have newline : letter ≠ '\n' := by
        rintro rfl
        cases found
      rw [List.cons_append, List.cons_append, scanString, if_neg newline]
      simp only [found, ih]
      simp

theorem scanString_of_quoted {more body : List Char} (quoted : Quoted more body)
    (content spelling remaining : List Char) :
    scanString content spelling (body ++ '\x22' :: remaining) =
      .ok (⟨.text, String.ofList (content.reverse ++ more),
        spelling.reverse ++ (body ++ ['\x22'])⟩, remaining) := by
  rw [scanString_quoted quoted, scanString]
  simp

/-- The operators: the comparisons and `=` in their order in the table, and then the arithmetic. -/
theorem mem_operators_iff (spelling : String) (kind : Token.Kind) :
    (spelling, kind) ∈ operators ↔
      (∃ op : Comparison, spelling = op.spelling ∧ kind = .comparison op) ∨
        (spelling = "=" ∧ kind = .assign) ∨
          ∃ op : Arithmetic, spelling = op.spelling ∧ kind = .arithmetic op := by
  constructor
  · intro member
    simp only [operators, List.append_assoc, List.cons_append, List.mem_append, List.mem_cons,
      List.mem_map, Prod.mk.injEq] at member
    obtain ⟨op, _, rfl, rfl⟩ | ⟨rfl, rfl⟩ | ⟨op, _, rfl, rfl⟩ | ⟨op, _, rfl, rfl⟩ := member
    · exact .inl ⟨op, rfl, rfl⟩
    · exact .inr (.inl ⟨rfl, rfl⟩)
    · exact .inl ⟨op, rfl, rfl⟩
    · exact .inr (.inr ⟨op, rfl, rfl⟩)
  · rintro (⟨op, rfl, rfl⟩ | ⟨rfl, rfl⟩ | ⟨op, rfl, rfl⟩)
    · cases op <;> decide
    · decide
    · cases op <;> decide

/-- Only `=`, `<` and `>` begin a longer operator, and it goes on with an equals sign. -/
theorem find?_operators {spelling : String} {kind : Token.Kind}
    (member : (spelling, kind) ∈ operators) {remaining : List Char}
    (closed : Closed ⟨kind, spelling, spelling.toList⟩ remaining) :
    operators.find? (fun operator => operator.1.toList.isPrefixOf (spelling.toList ++ remaining)) =
      some (spelling, kind) := by
  have alone (other : remaining.head? ≠ some '=') (c : Char) :
      [c, '='].isPrefixOf (c :: remaining) = false := by
    cases remaining with
    | nil => simp
    | cons d _ =>
        have differs : '=' ≠ d := fun same => other (congrArg some same.symm)
        simp [List.isPrefixOf_cons_cons, differs]
  obtain ⟨op, rfl, rfl⟩ | ⟨rfl, rfl⟩ | ⟨op, rfl, rfl⟩ := (mem_operators_iff spelling kind).mp member
  · cases op with
    | le | ge | eq | ne => rfl
    | lt | gt => simp [operators, Comparison.spelling, alone closed]
  · simp [operators, Comparison.spelling, alone closed]
  · cases op <;> rfl

theorem closed_of_find?_operators {spelling : String} {kind : Token.Kind} {remaining : List Char}
    (found : operators.find? (fun operator =>
      operator.1.toList.isPrefixOf (spelling.toList ++ remaining)) = some (spelling, kind)) :
    Closed ⟨kind, spelling, spelling.toList⟩ remaining := by
  have member := List.mem_of_find?_eq_some found
  -- With an equals sign after it, the longer operator would have been found.
  obtain ⟨op, rfl, rfl⟩ | ⟨rfl, rfl⟩ | ⟨op, rfl, rfl⟩ := (mem_operators_iff spelling kind).mp member
  · cases op with
    | le | ge | eq | ne => trivial
    | lt | gt =>
        intro next
        obtain ⟨rest, rfl⟩ := List.head?_eq_some_iff.mp next
        exact absurd (congrArg (Option.map Prod.snd) found) nofun
  · intro next
    obtain ⟨rest, rfl⟩ := List.head?_eq_some_iff.mp next
    exact absurd (congrArg (Option.map Prod.snd) found) nofun
  · cases op <;> trivial

theorem scanOperator_eq_ok_iff (source remaining : List Char) (lexeme : Lexeme) :
    scanOperator source = .ok (lexeme, remaining) ↔
      ∃ spelling kind, (spelling, kind) ∈ operators ∧ lexeme = ⟨kind, spelling, spelling.toList⟩ ∧
        source = spelling.toList ++ remaining ∧ Closed lexeme remaining := by
  constructor
  · intro scanned
    have covers := (scanOperator_covers scanned).1
    rw [scanOperator] at scanned
    split at scanned
    · next spelling kind found =>
        cases scanned
        rw [← covers] at found
        exact ⟨spelling, kind, List.mem_of_find?_eq_some found, rfl, covers.symm,
          closed_of_find?_operators found⟩
    · cases scanned
  · rintro ⟨spelling, kind, member, rfl, rfl, closed⟩
    rw [scanOperator, find?_operators member closed]
    simp [← String.length_toList]

/-- The longest run of word characters at the front. -/
theorem run_iff (source run remaining : List Char) :
    source.takeWhile continuesWord = run ∧ source.dropWhile continuesWord = remaining ↔
      source = run ++ remaining ∧ (∀ c ∈ run, continuesWord c = true) ∧
        ∀ c ∈ remaining.head?, continuesWord c = false := by
  constructor
  · rintro ⟨rfl, rfl⟩
    refine ⟨List.takeWhile_append_dropWhile.symm, fun c => List.mem_takeWhile_imp, ?_⟩
    intro c head
    have stops := List.head?_dropWhile_not continuesWord source
    rw [Option.mem_def.mp head] at stops
    simpa using stops
  · rintro ⟨rfl, inside, outside⟩
    rw [List.takeWhile_append_of_pos inside, List.dropWhile_append_of_pos inside]
    cases remaining with
    | nil => simp
    | cons c rest =>
        have stops := outside c rfl
        simp [stops]

theorem wordKind_cases (word : String) :
    wordKind word = .identifier ∨ ∃ keyword, wordKind word = .keyword keyword := by
  rw [wordKind]
  split
  · exact .inr ⟨_, rfl⟩
  · exact .inl rfl

theorem closed_word (word : String) (spelling following : List Char) :
    Closed ⟨wordKind word, word, spelling⟩ following ↔
      ∀ c ∈ following.head?, continuesWord c = false := by
  obtain kind | ⟨keyword, kind⟩ := wordKind_cases word <;> rw [Closed, kind]

theorem startsWord_continues {c : Char} (starts : startsWord c = true) :
    continuesWord c = true := by
  simp only [startsWord, continuesWord, Char.isAlphanum, Bool.or_eq_true] at starts ⊢
  exact starts.imp_left .inl

/-- The letters of either case, as ranges of characters. -/
theorem isAlpha_iff (c : Char) :
    c.isAlpha = true ↔ ('A' ≤ c ∧ c ≤ 'Z') ∨ ('a' ≤ c ∧ c ≤ 'z') := by
  change (decide ('A' ≤ c ∧ c ≤ 'Z') || (decide ('a' ≤ c) && decide (c ≤ 'z'))) = true ↔ _
  rw [Bool.or_eq_true, Bool.and_eq_true, decide_eq_true_eq, decide_eq_true_eq, decide_eq_true_eq]

theorem startsWord_not_digit {c : Char} (starts : startsWord c = true) : c.isDigit = false := by
  rw [Bool.eq_false_iff]
  intro digit
  have below : c.toNat ≤ '9'.toNat := (Char.isDigit_iff_toNat.mp digit).2
  have above : 'A'.toNat ≤ c.toNat := by
    rw [startsWord, Bool.or_eq_true, isAlpha_iff, decide_eq_true_eq] at starts
    obtain (upper | lower) | rfl := starts
    · exact upper.1
    · exact Nat.le_trans (by decide) lower.1
    · decide
  simp only [Char.reduceToNat] at above below
  omega

theorem digit_continues {c : Char} (digit : c.isDigit = true) : continuesWord c = true := by
  simp [continuesWord, Char.isAlphanum, digit]

theorem letter_continues {c : Char} (letter : c.isAlpha = true) : continuesWord c = true := by
  simp [continuesWord, Char.isAlphanum, letter]

theorem hexDigit_continues {c : Char} (digit : Numeral.HexDigit c) : continuesWord c = true := by
  obtain decimal | lower | upper := digit
  · exact digit_continues (Char.isDigit_iff_toNat.mpr decimal)
  · have below : c ≤ 'z' := Char.le_trans lower.2 (by decide)
    exact letter_continues ((isAlpha_iff c).mpr (.inr ⟨lower.1, below⟩))
  · have below : c ≤ 'Z' := Char.le_trans upper.2 (by decide)
    exact letter_continues ((isAlpha_iff c).mpr (.inl ⟨upper.1, below⟩))

theorem literal_continues {numeral : List Char} {value : Nat}
    (literal : Numeral.Literal numeral value) : ∀ c ∈ numeral, continuesWord c = true := by
  cases literal with
  | decimal run =>
      exact fun c member => digit_continues (Char.isDigit_iff_toNat.mpr (run.2 c member))
  | hexadecimal _ digits =>
      have prefixed : continuesWord '0' = true ∧ continuesWord 'x' = true := by decide
      simp only [List.forall_mem_cons]
      exact ⟨prefixed.1, prefixed.2, fun c member => hexDigit_continues (digits c member)⟩

theorem literal_head {numeral : List Char} {value : Nat}
    (literal : Numeral.Literal numeral value) :
    ∃ first rest, numeral = first :: rest ∧ first.isDigit = true := by
  cases literal with
  | decimal run =>
      obtain ⟨first, rest, rfl⟩ := List.exists_cons_of_ne_nil run.1
      exact ⟨first, rest, rfl, Char.isDigit_iff_toNat.mpr (run.2 first List.mem_cons_self)⟩
  | hexadecimal _ _ => exact ⟨_, _, rfl, rfl⟩

theorem IsWord.continues {word : List Char} (isWord : IsWord word) :
    ∀ c ∈ word, continuesWord c = true := by
  obtain ⟨first, rest, rfl, starts, continues⟩ := isWord
  exact List.forall_mem_cons.mpr ⟨startsWord_continues starts, continues⟩

theorem scan_digit {first : Char} (digit : first.isDigit = true) (rest : List Char) :
    scan first rest = scanInteger (first :: rest) := by
  have newline : first ≠ '\n' := by
    rintro rfl
    cases digit
  rw [scan, if_neg newline, if_pos digit]

theorem scan_word {first : Char} (starts : startsWord first = true) (rest : List Char) :
    scan first rest = .ok (scanWord (first :: rest)) := by
  have newline : first ≠ '\n' := by
    rintro rfl
    cases starts
  have digit := startsWord_not_digit starts
  rw [scan, if_neg newline, if_neg (by simp [digit]), if_pos starts]

theorem operator_head {spelling : String} {kind : Token.Kind}
    (member : (spelling, kind) ∈ operators) :
    ∃ first rest, spelling.toList = first :: rest ∧ isOperatorChar first = true := by
  have heads : ∀ operator ∈ operators, operator.1.toList.head?.any isOperatorChar = true := by
    decide
  obtain ⟨first, head, operator⟩ := (Option.any_eq_true _ _).mp (heads _ member)
  obtain ⟨rest, letters⟩ := List.head?_eq_some_iff.mp head
  exact ⟨first, rest, letters, operator⟩

theorem scan_operatorChar {first : Char} (operator : isOperatorChar first = true)
    (rest : List Char) : scan first rest = scanOperator (first :: rest) := by
  simp only [isOperatorChar, List.mem_cons, List.not_mem_nil, or_false, decide_eq_true_eq]
    at operator
  rcases operator with rfl | rfl | rfl | rfl | rfl | rfl | rfl | rfl | rfl | rfl <;> rfl

theorem scanInteger_eq_ok_iff (source remaining : List Char) (lexeme : Lexeme) :
    scanInteger source = .ok (lexeme, remaining) ↔
      ∃ numeral value, Numeral.Literal numeral value ∧ value ≤ Int64.maxValue.toNatClampNeg ∧
        lexeme = ⟨.integer, Numeral.ofNat value, numeral⟩ ∧ source = numeral ++ remaining ∧
        ∀ c ∈ remaining.head?, continuesWord c = false := by
  constructor
  · intro scanned
    simp only [scanInteger] at scanned
    split at scanned
    · cases scanned
    · next value read =>
        split at scanned
        · next fits =>
            cases scanned
            obtain ⟨covers, _, closed⟩ := (run_iff source _ _).mp ⟨rfl, rfl⟩
            have literal := (Numeral.literal?_eq_some_iff _ value).mp read
            exact ⟨_, value, literal, fits, rfl, covers, closed⟩
        · cases scanned
  · rintro ⟨numeral, value, literal, fits, rfl, covers, closed⟩
    obtain ⟨run, left⟩ := (run_iff source numeral remaining).mpr
      ⟨covers, literal_continues literal, closed⟩
    simp only [scanInteger, run, left, (Numeral.literal?_eq_some_iff _ _).mpr literal, if_pos fits]

theorem isWord_takeWhile {first : Char} (starts : startsWord first = true) (rest : List Char) :
    IsWord ((first :: rest).takeWhile continuesWord) := by
  rw [List.takeWhile_cons_of_pos (startsWord_continues starts)]
  exact ⟨first, _, rfl, starts, fun c => List.mem_takeWhile_imp⟩

theorem scanLabel_eq_ok_iff (source remaining : List Char) (lexeme : Lexeme) :
    scanLabel source = .ok (lexeme, remaining) ↔
      ∃ name, IsWord name ∧ lexeme = ⟨.label, String.ofList name, ':' :: name⟩ ∧
        source = name ++ remaining ∧ ∀ c ∈ remaining.head?, continuesWord c = false := by
  constructor
  · intro scanned
    rw [scanLabel] at scanned
    split at scanned
    · next starts =>
        cases scanned
        obtain ⟨covers, _, closed⟩ := (run_iff source _ _).mp ⟨rfl, rfl⟩
        cases source with
        | nil => cases starts
        | cons first rest => exact ⟨_, isWord_takeWhile starts rest, rfl, covers, closed⟩
    · cases scanned
  · rintro ⟨name, isWord, rfl, covers, closed⟩
    obtain ⟨run, left⟩ := (run_iff source name remaining).mpr ⟨covers, isWord.continues, closed⟩
    obtain ⟨first, others, rfl, starts, _⟩ := isWord
    rw [scanLabel, if_pos (by simpa [covers] using starts), run, left]

theorem scanWord_eq_iff {first : Char} (starts : startsWord first = true)
    (rest remaining : List Char) (lexeme : Lexeme) :
    scanWord (first :: rest) = (lexeme, remaining) ↔
      ∃ word, IsWord word ∧ lexeme = ⟨wordKind (String.ofList word), String.ofList word, word⟩ ∧
        first :: rest = word ++ remaining ∧ ∀ c ∈ remaining.head?, continuesWord c = false := by
  constructor
  · intro scanned
    cases scanned
    obtain ⟨covers, _, closed⟩ := (run_iff (first :: rest) _ _).mp ⟨rfl, rfl⟩
    exact ⟨_, isWord_takeWhile starts rest, rfl, covers, closed⟩
  · rintro ⟨word, isWord, rfl, covers, closed⟩
    obtain ⟨run, left⟩ := (run_iff _ word remaining).mpr ⟨covers, isWord.continues, closed⟩
    rw [scanWord, run, left]

/-- What a scan finds is a lexeme of the language, at the front of the source, that the text after
it does not go on with. -/
theorem written_of_scan {first : Char} {rest remaining : List Char} {lexeme : Lexeme}
    (scanned : scan first rest = .ok (lexeme, remaining)) :
    first :: rest = lexeme.spelling ++ remaining ∧ lexeme.Written ∧ lexeme.Closed remaining := by
  refine ⟨(scan_covers scanned).1.symm, ?_⟩
  rw [scan] at scanned
  split at scanned
  · cases scanned
    exact ⟨.newline, trivial⟩
  split at scanned
  · obtain ⟨numeral, value, literal, fits, rfl, _, closed⟩ :=
      (scanInteger_eq_ok_iff _ _ _).mp scanned
    exact ⟨.integer literal fits, closed⟩
  split at scanned
  · next starts =>
      obtain ⟨word, isWord, rfl, _, closed⟩ :=
        (scanWord_eq_iff starts rest _ _).mp (Except.ok.inj scanned)
      exact ⟨.word isWord, (closed_word _ _ _).mpr closed⟩
  split at scanned
  · obtain ⟨name, isWord, rfl, _, closed⟩ := (scanLabel_eq_ok_iff _ _ _).mp scanned
    exact ⟨.label isWord, closed⟩
  split at scanned
  · obtain ⟨content, body, _, quoted, rfl⟩ := quoted_of_scanString scanned
    exact ⟨.text quoted, trivial⟩
  split at scanned
  · obtain ⟨spelling, kind, member, rfl, _, closed⟩ := (scanOperator_eq_ok_iff _ _ _).mp scanned
    exact ⟨.operator member, closed⟩
  · cases scanned

theorem scan_of_written {first : Char} {rest remaining : List Char} {lexeme : Lexeme}
    (written : lexeme.Written) (covers : first :: rest = lexeme.spelling ++ remaining)
    (closed : lexeme.Closed remaining) : scan first rest = .ok (lexeme, remaining) := by
  cases written with
  | newline =>
      cases covers
      rfl
  | word isWord =>
      have outside := (closed_word _ _ _).mp closed
      have isWord' := isWord
      obtain ⟨first, others, rfl, starts, _⟩ := isWord
      cases covers
      rw [scan_word starts, (scanWord_eq_iff starts _ _ _).mpr]
      exact ⟨_, isWord', rfl, rfl, outside⟩
  | integer literal fits =>
      obtain ⟨first, others, rfl, digit⟩ := literal_head literal
      cases covers
      rw [scan_digit digit, (scanInteger_eq_ok_iff _ _ _).mpr]
      exact ⟨_, _, literal, fits, rfl, rfl, closed⟩
  | @label name isWord =>
      cases covers
      exact (scanLabel_eq_ok_iff _ _ _).mpr ⟨name, isWord, rfl, rfl, closed⟩
  | @text content body quoted =>
      cases covers
      change scanString [] ['\x22'] (body ++ ['\x22'] ++ remaining) = _
      rw [List.append_assoc]
      exact scanString_of_quoted quoted [] ['\x22'] remaining
  | @operator spelling kind member =>
      obtain ⟨c, more, letters, operator⟩ := operator_head member
      have same : first = c := by
        simp only [letters, List.cons_append] at covers
        exact (List.cons.inj covers).1
      subst same
      rw [scan_operatorChar operator, (scanOperator_eq_ok_iff _ _ _).mpr]
      exact ⟨spelling, kind, member, rfl, covers, closed⟩

end Lexeme
end LineScript
