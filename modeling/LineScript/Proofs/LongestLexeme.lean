import LineScript.Proofs.Reading
import Mathlib.Algebra.Group.Nat.Defs
import Mathlib.Data.List.Infix

/-!
The rule of the longest lexeme. The first character of a source says what kind of lexeme stands
there, and the lexeme is the longest front of the source that is of this kind. `Next` states the
rule without saying how a source is searched, and it finds what scanning finds, lexemes and faults
alike.
-/

namespace LineScript
namespace Lexeme

/-- The longest front of a source that has a property. -/
structure LongestFront (Fits : List Char → Prop) (source front : List Char) : Prop where
  isFront : front <+: source
  fits : Fits front
  longest : ∀ other, other <+: source → Fits other → other.length ≤ front.length

def WordStart (c : Char) : Prop :=
  ('A' ≤ c ∧ c ≤ 'Z') ∨ ('a' ≤ c ∧ c ≤ 'z') ∨ c = '_'

def WordCharacter (c : Char) : Prop :=
  WordStart c ∨ ('0' ≤ c ∧ c ≤ '9')

/-- The longest run of letters, digits and underscores. -/
def LongestRun : List Char → List Char → Prop :=
  LongestFront fun front => ∀ c ∈ front, WordCharacter c

/-- A word is a keyword only as a whole. -/
inductive WordKind (word : List Char) : Token.Kind → Prop
  | keyword (keyword : Keyword) : word = keyword.spelling.toList → WordKind word (.keyword keyword)
  | identifier : (∀ keyword : Keyword, word ≠ keyword.spelling.toList) → WordKind word .identifier

/-- The operators with their spellings. -/
inductive Operator : List Char → Token.Kind → Prop
  | assign : Operator ['='] .assign
  | comparison (op : Comparison) : Operator op.spelling.toList (.comparison op)
  | arithmetic (op : Arithmetic) : Operator op.spelling.toList (.arithmetic op)

/-- How a string goes wrong after contents that are in order: its line ends, perhaps after a
backslash, or a backslash stands before a letter that is no escape. -/
inductive BreaksOff : List Char → LexicalFault → Prop
  | sourceEnds : BreaksOff [] .unterminatedString
  | lineEnds {rest : List Char} : BreaksOff ('\n' :: rest) .unterminatedString
  | sourceEndsEscaped : BreaksOff ['\\'] .unterminatedString
  | lineEndsEscaped {rest : List Char} : BreaksOff ('\\' :: '\n' :: rest) .unterminatedString
  | noEscape {letter : Char} {rest : List Char} : letter ≠ '\n' → (∀ c, (letter, c) ∉ escapes) →
      BreaksOff ('\\' :: letter :: rest) (.invalidEscape letter)

/-- What stands at the front of a source that begins with no blank: a lexeme, or the fault of what
would have to be one. -/
inductive Next : List Char → Except LexicalFault Lexeme → Prop
  | newline {rest : List Char} : Next ('\n' :: rest) (.ok ⟨.endOfStatement, "", ['\n']⟩)
  | word {first : Char} {rest word : List Char} {kind : Token.Kind} : WordStart first →
      LongestRun (first :: rest) word → WordKind word kind →
      Next (first :: rest) (.ok ⟨kind, String.ofList word, word⟩)
  | integer {first : Char} {rest run : List Char} {value : Nat} : ('0' ≤ first ∧ first ≤ '9') →
      LongestRun (first :: rest) run → Numeral.Literal run value → value < 2 ^ 63 →
      Next (first :: rest) (.ok ⟨.integer, Numeral.ofNat value, run⟩)
  | integerTooLarge {first : Char} {rest run : List Char} {value : Nat} :
      ('0' ≤ first ∧ first ≤ '9') → LongestRun (first :: rest) run →
      Numeral.Literal run value → 2 ^ 63 ≤ value → Next (first :: rest) (.error .integerOutOfRange)
  | noInteger {first : Char} {rest run : List Char} : ('0' ≤ first ∧ first ≤ '9') →
      LongestRun (first :: rest) run → (∀ value, ¬ Numeral.Literal run value) →
      Next (first :: rest) (.error .invalidInteger)
  | label {first : Char} {rest name : List Char} : WordStart first →
      LongestRun (first :: rest) name →
      Next (':' :: first :: rest) (.ok ⟨.label, String.ofList name, ':' :: name⟩)
  | noLabel {rest : List Char} : (∀ c ∈ rest.head?, ¬ WordStart c) →
      Next (':' :: rest) (.error .invalidLabel)
  | operator {source spelling : List Char} {kind : Token.Kind} : Operator spelling kind →
      LongestFront (fun front => ∃ kind, Operator front kind) source spelling →
      Next source (.ok ⟨kind, String.ofList spelling, spelling⟩)
  | noOperator {rest : List Char} : rest.head? ≠ some '=' →
      Next ('!' :: rest) (.error .invalidOperator)
  | text {content body rest : List Char} : Quoted content body →
      Next ('\x22' :: (body ++ '\x22' :: rest))
        (.ok ⟨.text, String.ofList content, '\x22' :: (body ++ ['\x22'])⟩)
  | noText {content body rest : List Char} {fault : LexicalFault} : Quoted content body →
      BreaksOff rest fault → Next ('\x22' :: (body ++ rest)) (.error fault)
  | unexpected {first : Char} {rest : List Char} : ¬ WordCharacter first →
      first ∉ " \t\r\n:\"=<>!+-*/%^".toList →
      Next (first :: rest) (.error (.unexpectedCharacter first))

theorem startsWord_iff (c : Char) : startsWord c = true ↔ WordStart c := by
  rw [startsWord, Bool.or_eq_true, isAlpha_iff, decide_eq_true_eq, WordStart, or_assoc]

theorem isDigit_iff (c : Char) : c.isDigit = true ↔ '0' ≤ c ∧ c ≤ '9' :=
  Char.isDigit_iff_toNat

theorem continuesWord_iff (c : Char) : continuesWord c = true ↔ WordCharacter c := by
  have reordered : continuesWord c = (startsWord c || c.isDigit) := by
    rw [continuesWord, startsWord, Char.isAlphanum, Bool.or_right_comm]
  rw [reordered, Bool.or_eq_true, startsWord_iff, isDigit_iff, WordCharacter]

/-- Two longest fronts of one source are the same. -/
theorem LongestFront.unique {Fits : List Char → Prop} {source front other : List Char}
    (longest : LongestFront Fits source front) (longest' : LongestFront Fits source other) :
    front = other := by
  have upper := longest'.longest front longest.isFront longest.fits
  have lower := longest.longest other longest'.isFront longest'.fits
  have within := List.prefix_of_prefix_length_le longest.isFront longest'.isFront upper
  exact within.eq_of_length (Nat.le_antisymm upper lower)

theorem longestRun_takeWhile (source : List Char) :
    LongestRun source (source.takeWhile continuesWord) where
  isFront := List.takeWhile_prefix continuesWord
  fits := fun c member => (continuesWord_iff c).mp (List.mem_takeWhile_imp member)
  longest := by
    rintro other ⟨rest, rfl⟩ inside
    have word : ∀ c ∈ other, continuesWord c = true :=
      fun c member => (continuesWord_iff c).mpr (inside c member)
    rw [List.takeWhile_append_of_pos word, List.length_append]
    exact Nat.le_add_right _ _

theorem longestRun_iff (source run : List Char) :
    LongestRun source run ↔ source.takeWhile continuesWord = run := by
  constructor
  · exact fun longest => (longestRun_takeWhile source).unique longest
  · rintro rfl
    exact longestRun_takeWhile source

theorem wordKind_iff (word : List Char) (kind : Token.Kind) :
    WordKind word kind ↔ wordKind (String.ofList word) = kind := by
  have spells (keyword : Keyword) :
      keyword.spelling = String.ofList word ↔ word = keyword.spelling.toList := by
    rw [← String.toList_inj, String.toList_ofList, eq_comm]
  have all : ∀ keyword : Keyword, keyword ∈ Keyword.all := by rintro (_ | _ | _ | _) <;> decide
  have distinct : ∀ keyword other : Keyword, keyword.spelling = other.spelling →
      keyword = other := by
    rintro (_ | _ | _ | _) (_ | _ | _ | _) same <;> first | rfl | exact absurd same (by decide)
  rw [wordKind]
  cases found : Keyword.all.find? fun keyword => keyword.spelling = String.ofList word with
  | none =>
      have other (keyword : Keyword) : word ≠ keyword.spelling.toList := by
        have missed := List.find?_eq_none.mp found keyword (all keyword)
        simpa only [decide_eq_true_eq, spells] using missed
      constructor
      · rintro (⟨keyword, same⟩ | _)
        · exact absurd same (other keyword)
        · rfl
      · rintro rfl
        exact .identifier other
  | some keyword =>
      have same := List.find?_some found
      rw [decide_eq_true_eq] at same
      constructor
      · rintro (⟨another, spelled⟩ | others)
        · exact congrArg _ (distinct _ _ (same.trans ((spells another).mpr spelled).symm))
        · exact absurd ((spells keyword).mp same) (others keyword)
      · rintro rfl
        exact .keyword keyword ((spells keyword).mp same)

theorem operator_iff (spelling : List Char) (kind : Token.Kind) :
    Operator spelling kind ↔ (String.ofList spelling, kind) ∈ operators := by
  have spells (text : String) : String.ofList spelling = text ↔ spelling = text.toList := by
    rw [← String.toList_inj, String.toList_ofList]
  rw [mem_operators_iff, spells]
  simp only [spells]
  constructor
  · rintro (_ | op | op)
    · exact .inr (.inl ⟨rfl, rfl⟩)
    · exact .inl ⟨op, rfl, rfl⟩
    · exact .inr (.inr ⟨op, rfl, rfl⟩)
  · rintro (⟨op, rfl, rfl⟩ | ⟨rfl, rfl⟩ | ⟨op, rfl, rfl⟩)
    · exact .comparison op
    · exact .assign
    · exact .arithmetic op

/-- No spelling in the table is longer than one before it, so the first that fits is the longest. -/
theorem longestOperator_of_find? {source : List Char} {spelling : String} {kind : Token.Kind}
    (found : operators.find? (fun operator => operator.1.toList.isPrefixOf source) =
      some (spelling, kind)) :
    Operator spelling.toList kind ∧
      LongestFront (fun front => ∃ kind, Operator front kind) source spelling.toList := by
  have operator : Operator spelling.toList kind := by
    rw [operator_iff, String.ofList_toList]
    exact List.mem_of_find?_eq_some found
  obtain ⟨fits, before, after, split, misfits⟩ := List.find?_eq_some_iff_append.mp found
  refine ⟨operator, List.isPrefixOf_iff_prefix.mp fits, ⟨kind, operator⟩, ?_⟩
  rintro other isFront ⟨otherKind, isOperator⟩
  have sorted : operators.Pairwise fun operator later =>
      later.1.toList.length ≤ operator.1.toList.length := by decide
  have member := (operator_iff other otherKind).mp isOperator
  rw [split] at sorted member
  obtain earlier | here | later := by simpa only [List.mem_append, List.mem_cons] using member
  · have misfit := misfits _ earlier
    rw [String.toList_ofList, List.isPrefixOf_iff_prefix.mpr isFront] at misfit
    cases misfit
  · cases here
    rw [String.toList_ofList]
  · have shorter := (List.pairwise_cons.mp (List.pairwise_append.mp sorted).2.1).1 _ later
    rwa [String.toList_ofList] at shorter

theorem find?_of_longestOperator {source spelling : List Char} {kind : Token.Kind}
    (operator : Operator spelling kind)
    (longest : LongestFront (fun front => ∃ kind, Operator front kind) source spelling) :
    operators.find? (fun operator => operator.1.toList.isPrefixOf source) =
      some (String.ofList spelling, kind) := by
  have member := (operator_iff spelling kind).mp operator
  cases found : operators.find? fun operator => operator.1.toList.isPrefixOf source with
  | none =>
      have misfit := List.find?_eq_none.mp found _ member
      rw [String.toList_ofList] at misfit
      exact absurd (List.isPrefixOf_iff_prefix.mpr longest.isFront) misfit
  | some entry =>
      obtain ⟨text, other⟩ := entry
      have same := longest.unique (longestOperator_of_find? found).2
      subst same
      have spelled : ∀ operator ∈ operators, ∀ other ∈ operators, operator.1 = other.1 →
          operator = other := by decide
      rw [spelled _ (List.mem_of_find?_eq_some found) _ member String.ofList_toList.symm]

theorem escape?_eq_none_iff (letter : Char) :
    escape? letter = none ↔ ∀ c, (letter, c) ∉ escapes := by
  simp only [Option.eq_none_iff_forall_ne_some, ne_eq, escape?_eq_some_iff]

theorem scanString_of_breaksOff {rest : List Char} {fault : LexicalFault}
    (broken : BreaksOff rest fault) (content spelling : List Char) :
    scanString content spelling rest = .error fault := by
  cases broken with
  | sourceEnds | lineEnds | sourceEndsEscaped | lineEndsEscaped => rfl
  | noEscape newline unknown =>
      rw [scanString, if_neg newline]
      simp only [(escape?_eq_none_iff _).mpr unknown]

theorem breaksOff_of_scanString {content spelling source : List Char} {fault : LexicalFault}
    (failed : scanString content spelling source = .error fault) :
    ∃ more body rest, source = body ++ rest ∧ Quoted more body ∧ BreaksOff rest fault := by
  fun_induction scanString content spelling source with
  | case1 => cases failed
  | case2 content spelling rest =>
      cases failed
      exact ⟨[], [], _, rfl, .nil, .lineEndsEscaped⟩
  | case3 content spelling letter rest _ c found ih =>
      obtain ⟨more, body, rest, rfl, quoted, broken⟩ := ih failed
      have escape := (escape?_eq_some_iff letter c).mp found
      exact ⟨c :: more, '\\' :: letter :: body, rest, rfl, .escaped escape quoted, broken⟩
  | case4 content spelling letter rest newline unknown =>
      cases failed
      exact ⟨[], [], _, rfl, .nil, .noEscape newline ((escape?_eq_none_iff letter).mp unknown)⟩
  | case5 content spelling c rest _ noPair ends =>
      cases failed
      refine ⟨[], [], _, rfl, .nil, ?_⟩
      obtain rfl | rfl := ends
      · exact .lineEnds
      · cases rest with
        | nil => exact .sourceEndsEscaped
        | cons letter rest => exact absurd rfl (noPair letter rest rfl)
  | case6 content spelling c rest quote _ plain ih =>
      obtain ⟨more, body, rest, rfl, quoted, broken⟩ := ih failed
      rw [not_or] at plain
      exact ⟨c :: more, c :: body, rest, rfl, .plain quote plain.2 plain.1 quoted, broken⟩
  | case7 =>
      cases failed
      exact ⟨[], [], [], rfl, .nil, .sourceEnds⟩

theorem fits_iff (value : Nat) : value ≤ Int64.maxValue.toNatClampNeg ↔ value < 2 ^ 63 := by
  have largest : Int64.maxValue.toNatClampNeg = 2 ^ 63 - 1 := by decide
  omega

theorem scanInteger_next {first : Char} (digit : '0' ≤ first ∧ first ≤ '9') (rest : List Char) :
    Next (first :: rest) ((scanInteger (first :: rest)).map Prod.fst) := by
  have longest := longestRun_takeWhile (first :: rest)
  rw [scanInteger]
  split
  · next unread =>
      refine .noInteger digit longest fun value literal => ?_
      rw [(Numeral.literal?_eq_some_iff _ _).mpr literal] at unread
      cases unread
  · next value read =>
      have literal := (Numeral.literal?_eq_some_iff _ value).mp read
      split
      · next fits => exact .integer digit longest literal ((fits_iff value).mp fits)
      · next exceeds =>
          rw [fits_iff] at exceeds
          exact .integerTooLarge digit longest literal (Nat.le_of_not_lt exceeds)

theorem scanLabel_next (rest : List Char) :
    Next (':' :: rest) ((scanLabel rest).map Prod.fst) := by
  rw [scanLabel]
  cases rest with
  | nil => exact .noLabel (by simp)
  | cons first rest =>
      split
      · next starts =>
          exact .label ((startsWord_iff first).mp starts) (longestRun_takeWhile (first :: rest))
      · next noStart =>
          refine .noLabel fun c head starts => noStart ?_
          cases head
          exact (startsWord_iff first).mpr starts

theorem scanString_next (rest : List Char) :
    Next ('\x22' :: rest) ((scanString [] ['\x22'] rest).map Prod.fst) := by
  cases scanned : scanString [] ['\x22'] rest with
  | ok found =>
      obtain ⟨lexeme, remaining⟩ := found
      obtain ⟨content, body, rfl, quoted, rfl⟩ := quoted_of_scanString scanned
      exact .text quoted
  | error fault =>
      obtain ⟨content, body, rest, rfl, quoted, broken⟩ := breaksOff_of_scanString scanned
      exact .noText quoted broken

/-- Only `!` begins an operator and is none alone. -/
theorem operator_alone {first : Char} (operator : isOperatorChar first = true)
    (other : first ≠ '!') : ∃ entry ∈ operators, entry.1.toList = [first] := by
  have each : (['=', '<', '>', '!', '+', '-', '*', '/', '%', '^'].all fun c =>
      c = '!' || operators.any fun entry => entry.1.toList = [c]) = true := by decide
  have found := List.all_eq_true.mp each first (of_decide_eq_true operator)
  simpa [other] using found

theorem find?_operators_exclamation {rest : List Char} (alone : rest.head? ≠ some '=') :
    operators.find? (fun operator => operator.1.toList.isPrefixOf ('!' :: rest)) = none := by
  rw [List.find?_eq_none]
  intro operator member fits
  obtain ⟨following, covers⟩ := List.isPrefixOf_iff_prefix.mp fits
  have spelled : ∀ operator ∈ operators,
      operator.1.toList.head? ≠ some '!' ∧ operator.1.toList ≠ [] ∨
        operator.1.toList = ['!', '='] := by decide
  obtain ⟨other, nonempty⟩ | equals := spelled operator member
  · obtain ⟨c, more, letters⟩ := List.exists_cons_of_ne_nil nonempty
    rw [letters] at covers other
    cases covers
    exact other rfl
  · rw [equals] at covers
    cases covers
    exact alone rfl

theorem scanOperator_next {first : Char} (operator : isOperatorChar first = true)
    (rest : List Char) :
    Next (first :: rest) ((scanOperator (first :: rest)).map Prod.fst) := by
  rw [scanOperator]
  split
  · next spelling kind found =>
      obtain ⟨isOperator, longest⟩ := longestOperator_of_find? found
      have next := Next.operator isOperator longest
      rwa [String.ofList_toList] at next
  · next missing =>
      have misfit := List.find?_eq_none.mp missing
      by_cases exclamation : first = '!'
      · subst exclamation
        refine .noOperator fun equals => ?_
        obtain ⟨rest, rfl⟩ := List.head?_eq_some_iff.mp equals
        exact misfit ("!=", .comparison .ne) (by decide) rfl
      · obtain ⟨entry, member, spelled⟩ := operator_alone operator exclamation
        refine absurd (List.isPrefixOf_iff_prefix.mpr ?_) (misfit entry member)
        rw [spelled]
        exact ⟨rest, rfl⟩

theorem next_of_scan {first : Char} (solid : isBlank first = false) (rest : List Char) :
    Next (first :: rest) ((scan first rest).map Prod.fst) := by
  rw [scan]
  split
  · next newline =>
      subst newline
      exact .newline
  split
  · next digit => exact scanInteger_next ((isDigit_iff first).mp digit) rest
  split
  · next starts =>
      refine .word ((startsWord_iff first).mp starts) (longestRun_takeWhile (first :: rest)) ?_
      exact (wordKind_iff _ _).mpr rfl
  split
  · next colon =>
      subst colon
      exact scanLabel_next rest
  split
  · next quote =>
      subst quote
      exact scanString_next rest
  split
  · next operator => exact scanOperator_next operator rest
  · next newline digit starts colon quote operator =>
      refine .unexpected ?_ ?_
      · rw [WordCharacter, ← startsWord_iff, ← isDigit_iff]
        exact fun word => word.elim starts digit
      · simp only [isBlank, Bool.or_eq_false_iff, decide_eq_false_iff_not] at solid
        simp only [isOperatorChar, List.mem_cons, List.not_mem_nil, or_false, decide_eq_true_eq]
          at operator
        simp only [String.reduceToList, List.mem_cons, List.not_mem_nil, or_false]
        tauto

theorem scan_of_next {first : Char} {rest : List Char} {outcome : Except LexicalFault Lexeme}
    (next : Next (first :: rest) outcome) : (scan first rest).map Prod.fst = outcome := by
  cases next with
  | newline => rfl
  | word starts longest kind =>
      rw [scan_word ((startsWord_iff first).mpr starts), scanWord, (longestRun_iff _ _).mp longest,
        (wordKind_iff _ _).mp kind]
      rfl
  | integer digit longest literal fits =>
      rw [scan_digit ((isDigit_iff first).mpr digit), scanInteger, (longestRun_iff _ _).mp longest]
      simp only [(Numeral.literal?_eq_some_iff _ _).mpr literal, if_pos ((fits_iff _).mpr fits)]
      rfl
  | integerTooLarge digit longest literal exceeds =>
      rw [scan_digit ((isDigit_iff first).mpr digit), scanInteger, (longestRun_iff _ _).mp longest]
      have misfit := mt (fits_iff _).mp (Nat.not_lt_of_le exceeds)
      simp only [(Numeral.literal?_eq_some_iff _ _).mpr literal, if_neg misfit]
      rfl
  | @noInteger _ _ run digit longest unread =>
      have missing : Numeral.literal? run = none := by
        rw [Option.eq_none_iff_forall_ne_some]
        exact fun value read => unread value ((Numeral.literal?_eq_some_iff _ _).mp read)
      rw [scan_digit ((isDigit_iff first).mpr digit), scanInteger, (longestRun_iff _ _).mp longest]
      simp only [missing]
      rfl
  | @label first rest name starts longest =>
      change (scanLabel (first :: rest)).map Prod.fst = _
      have begins : (first :: rest).head?.any startsWord = true := (startsWord_iff first).mpr starts
      rw [scanLabel, if_pos begins, (longestRun_iff _ _).mp longest]
      rfl
  | noLabel noStart =>
      change (scanLabel rest).map Prod.fst = _
      cases rest with
      | nil => rfl
      | cons first rest =>
          have other : ¬ (first :: rest).head?.any startsWord = true :=
            fun starts => noStart first rfl ((startsWord_iff first).mp starts)
          rw [scanLabel, if_neg other]
          rfl
  | @operator _ spelling kind isOperator longest =>
      obtain ⟨c, more, letters, operator⟩ :=
        operator_head ((operator_iff spelling kind).mp isOperator)
      obtain ⟨following, covers⟩ := longest.isFront
      rw [String.toList_ofList] at letters
      rw [letters, List.cons_append] at covers
      obtain ⟨rfl, _⟩ := List.cons.inj covers
      rw [scan_operatorChar operator, scanOperator, find?_of_longestOperator isOperator longest]
      simp only [Except.map, String.toList_ofList]
  | noOperator alone =>
      change (scanOperator ('!' :: rest)).map Prod.fst = _
      rw [scanOperator, find?_operators_exclamation alone]
      rfl
  | text quoted =>
      change (scanString [] ['\x22'] _).map Prod.fst = _
      rw [scanString_of_quoted quoted]
      rfl
  | noText quoted broken =>
      change (scanString [] ['\x22'] _).map Prod.fst = _
      rw [scanString_quoted quoted, scanString_of_breaksOff broken]
      rfl
  | unexpected noWord other =>
      rw [WordCharacter, ← startsWord_iff, ← isDigit_iff, not_or] at noWord
      simp only [String.reduceToList, List.mem_cons, List.not_mem_nil, or_false, not_or] at other
      rw [scan, if_neg (by tauto), if_neg noWord.2, if_neg noWord.1, if_neg (by tauto),
        if_neg (by tauto), if_neg]
      · rfl
      · simp only [isOperatorChar, List.mem_cons, List.not_mem_nil, or_false, decide_eq_true_eq]
        tauto

/-- The rule of the longest lexeme finds what scanning finds, and nothing else. -/
theorem next_iff_scan {first : Char} (solid : isBlank first = false) (rest : List Char)
    (outcome : Except LexicalFault Lexeme) :
    Next (first :: rest) outcome ↔ (scan first rest).map Prod.fst = outcome := by
  constructor
  · exact scan_of_next
  · rintro rfl
    exact next_of_scan solid rest

end Lexeme
end LineScript
