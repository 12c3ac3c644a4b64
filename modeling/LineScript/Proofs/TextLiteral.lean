import LineScript.Proofs.FirstLine
import Mathlib.Algebra.Group.Nat.Even
import Mathlib.Data.List.DropRight

/-!
Where a text literal ends, said by counting backslashes. A quote closes the literal when an even
number of backslashes stands before it, and an escape begins at a backslash with an even number
before it. The rule looks at the line only, and it finds what scanning finds.
-/

namespace LineScript
namespace Lexeme

/-- The backslashes at the end of the text pair up, so what stands after it is not escaped. The text
begins after the opening quote. -/
def Unescaped (front : List Char) : Prop :=
  Even (front.rtakeWhile (· = '\\')).length

/-- The text stands before the quote that closes the literal, the first on the line that is not
escaped. -/
structure ClosesAfter (line body : List Char) : Prop where
  quote : body ++ ['\x22'] <+: line
  unescaped : Unescaped body
  first : ∀ other, other ++ ['\x22'] <+: line → Unescaped other → body.length ≤ other.length

/-- An escape with the letter begins after `front`. -/
structure EscapeAt (stretch front : List Char) (letter : Char) : Prop where
  stands : front ++ ['\\', letter] <+: stretch
  unescaped : Unescaped front

def Supported (letter : Char) : Prop :=
  ∃ c, (letter, c) ∈ escapes

def AllSupported (stretch : List Char) : Prop :=
  ∀ front letter, EscapeAt stretch front letter → Supported letter

def FirstUnsupported (stretch : List Char) (letter : Char) : Prop :=
  ∃ front, EscapeAt stretch front letter ∧ ¬ Supported letter ∧
    ∀ other earlier, EscapeAt stretch other earlier → other.length < front.length →
      Supported earlier

/-- What the literal takes of the line without its closing quote: all of the line if none closes
it. -/
inductive Stretch (line : List Char) : List Char → Prop
  | closed {body : List Char} : ClosesAfter line body → Stretch line body
  | unclosed : (∀ body, ¬ ClosesAfter line body) → Stretch line line

/-- What a literal is by the line after its opening quote: its contents as they are decoded and as
they are written, or the fault. -/
inductive TextRule (line : List Char) : Except LexicalFault (List Char × List Char) → Prop
  | text {content body : List Char} : ClosesAfter line body → AllSupported body →
      Quoted content body → TextRule line (.ok (content, body))
  | badEscape {stretch : List Char} {letter : Char} : Stretch line stretch →
      FirstUnsupported stretch letter → TextRule line (.error (.invalidEscape letter))
  | unterminated : (∀ body, ¬ ClosesAfter line body) → AllSupported line →
      TextRule line (.error .unterminatedString)

theorem eq_of_prefixes {front other whole : List Char} (isFront : front <+: whole)
    (isFront' : other <+: whole) (same : front.length = other.length) : front = other :=
  (List.prefix_of_prefix_length_le isFront isFront' same.le).eq_of_length same

theorem unescaped_nil : Unescaped [] := by
  simp [Unescaped]

theorem unescaped_concat (front : List Char) (c : Char) :
    Unescaped (front ++ [c]) ↔ (c = '\\' → ¬ Unescaped front) := by
  rw [Unescaped, Unescaped, List.rtakeWhile_concat]
  split
  · next backslash =>
      rw [decide_eq_true_eq] at backslash
      simp [backslash, Nat.even_add_one]
  · next other =>
      rw [decide_eq_true_eq] at other
      simp [other]

theorem not_unescaped_backslash {front : List Char} (unescaped : Unescaped front) :
    ¬ Unescaped (front ++ ['\\']) := by
  rw [unescaped_concat]
  exact fun escaped => escaped rfl unescaped

/-- The count can begin anew wherever nothing is escaped. -/
theorem unescaped_append {front : List Char} (unescaped : Unescaped front) (back : List Char) :
    Unescaped (front ++ back) ↔ Unescaped back := by
  induction back using List.reverseRecOn with
  | nil => simp [unescaped, unescaped_nil]
  | append_singleton back c ih =>
      rw [← List.append_assoc, unescaped_concat, unescaped_concat, ih]

theorem unescaped_plain {c : Char} (plain : c ≠ '\\') : Unescaped [c] := by
  rw [← List.nil_append [c], unescaped_concat]
  exact fun backslash => absurd backslash plain

theorem unescaped_escape (letter : Char) : Unescaped ['\\', letter] := by
  change Unescaped (['\\'] ++ [letter])
  rw [unescaped_concat]
  exact fun _ => @not_unescaped_backslash [] unescaped_nil

theorem Quoted.unescaped {content body : List Char} (quoted : Quoted content body) :
    Unescaped body := by
  induction quoted with
  | nil => exact unescaped_nil
  | plain _ backslash _ _ ih => exact (unescaped_append (unescaped_plain backslash) _).mpr ih
  | escaped _ _ ih => exact (unescaped_append (unescaped_escape _) _).mpr ih

/-- Contents that are in order can be divided wherever nothing is escaped. -/
theorem Quoted.back {content front back : List Char} (quoted : Quoted content (front ++ back))
    (unescaped : Unescaped front) : ∃ more, Quoted more back := by
  generalize whole : front ++ back = body at quoted
  induction quoted generalizing front with
  | nil =>
      obtain ⟨rfl, rfl⟩ := List.append_eq_nil_iff.mp whole
      exact ⟨[], .nil⟩
  | @plain c content body quote backslash newline quoted ih =>
      cases front with
      | nil =>
          cases whole
          exact ⟨_, .plain quote backslash newline quoted⟩
      | cons d front =>
          cases whole
          exact ih ((unescaped_append (unescaped_plain backslash) front).mp unescaped) rfl
  | @escaped letter c content body escape quoted ih =>
      match front with
      | [] =>
          cases whole
          exact ⟨_, .escaped escape quoted⟩
      | [d] =>
          cases whole
          exact absurd unescaped (@not_unescaped_backslash [] unescaped_nil)
      | d :: e :: front =>
          cases whole
          exact ih ((unescaped_append (unescaped_escape letter) front).mp unescaped) rfl

/-- No quote closes a literal within contents that are in order. -/
theorem Quoted.length_le_of_quote {content body back front : List Char}
    (quoted : Quoted content body) (quote : front ++ ['\x22'] <+: body ++ back)
    (unescaped : Unescaped front) : body.length ≤ front.length := by
  refine Nat.le_of_not_lt fun shorter => ?_
  have inside : (front ++ ['\x22']).length ≤ body.length := by
    rw [List.length_append]
    exact shorter
  obtain ⟨after, rfl⟩ :=
    List.prefix_of_prefix_length_le quote (List.prefix_append body back) inside
  rw [List.append_assoc] at quoted
  obtain ⟨more, onward⟩ := quoted.back unescaped
  cases onward with
  | plain quote _ _ _ => exact quote rfl

/-- The escapes within contents that are in order are supported. -/
theorem Quoted.supported_or_length_le {content body back front : List Char} {letter : Char}
    (quoted : Quoted content body) (escape : EscapeAt (body ++ back) front letter) :
    Supported letter ∨ body.length ≤ front.length := by
  refine Classical.or_iff_not_imp_right.mpr fun shorter => ?_
  rw [Nat.not_le] at shorter
  obtain inside | ends : front.length + 2 ≤ body.length ∨ body.length = front.length + 1 := by omega
  · obtain ⟨after, rfl⟩ := List.prefix_of_prefix_length_le escape.stands
      (List.prefix_append body back) (by simpa using inside)
    rw [List.append_assoc] at quoted
    obtain ⟨more, onward⟩ := quoted.back escape.unescaped
    cases onward with
    | plain _ backslash _ _ => exact absurd rfl backslash
    | escaped supported _ => exact ⟨_, supported⟩
  · -- The contents would end within the escape.
    have begun : front ++ ['\\'] <+: body ++ back :=
      List.IsPrefix.trans ⟨[letter], by simp⟩ escape.stands
    have same := eq_of_prefixes begun (List.prefix_append body back) (by simp [ends])
    exact absurd (same ▸ quoted.unescaped) (not_unescaped_backslash escape.unescaped)

theorem ClosesAfter.unique {line body other : List Char} (closes : ClosesAfter line body)
    (closes' : ClosesAfter line other) : body = other := by
  have upper := closes.first other closes'.quote closes'.unescaped
  have lower := closes'.first body closes.quote closes.unescaped
  have same := eq_of_prefixes closes.quote closes'.quote (by simp; omega)
  exact List.append_cancel_right same

theorem Stretch.unique {line stretch other : List Char} (takes : Stretch line stretch)
    (takes' : Stretch line other) : stretch = other := by
  cases takes with
  | closed closes =>
      cases takes' with
      | closed closes' => exact closes.unique closes'
      | unclosed unclosed => exact absurd closes (unclosed _)
  | unclosed unclosed =>
      cases takes' with
      | closed closes' => exact absurd closes' (unclosed _)
      | unclosed _ => rfl

theorem FirstUnsupported.unique {stretch : List Char} {letter other : Char}
    (first : FirstUnsupported stretch letter) (first' : FirstUnsupported stretch other) :
    letter = other := by
  obtain ⟨front, escape, unsupported, earlier⟩ := first
  obtain ⟨front', escape', unsupported', earlier'⟩ := first'
  have upper := Nat.le_of_not_lt fun shorter => unsupported (earlier' _ _ escape shorter)
  have lower := Nat.le_of_not_lt fun shorter => unsupported' (earlier _ _ escape' shorter)
  have same := eq_of_prefixes escape.stands escape'.stands (by simp; omega)
  simpa using (List.append_inj' same rfl).2

theorem FirstUnsupported.not_allSupported {stretch : List Char} {letter : Char}
    (first : FirstUnsupported stretch letter) : ¬ AllSupported stretch := by
  obtain ⟨front, escape, unsupported, _⟩ := first
  exact fun all => unsupported (all front letter escape)

theorem Quoted.unique {content other body : List Char} (quoted : Quoted content body)
    (quoted' : Quoted other body) : content = other := by
  have scanned := scanString_of_quoted quoted [] [] []
  rw [scanString_of_quoted quoted' [] [] []] at scanned
  simpa [String.ofList_inj] using scanned.symm

theorem TextRule.unique {line : List Char}
    {outcome other : Except LexicalFault (List Char × List Char)}
    (rule : TextRule line outcome) (rule' : TextRule line other) : outcome = other := by
  cases rule with
  | text closes all quoted =>
      cases rule' with
      | text closes' _ quoted' =>
          obtain rfl := closes.unique closes'
          rw [quoted.unique quoted']
      | badEscape takes first =>
          obtain rfl := takes.unique (.closed closes)
          exact absurd all first.not_allSupported
      | unterminated unclosed _ => exact absurd closes (unclosed _)
  | badEscape takes first =>
      cases rule' with
      | text closes all _ =>
          obtain rfl := takes.unique (.closed closes)
          exact absurd all first.not_allSupported
      | badEscape takes' first' =>
          obtain rfl := takes.unique takes'
          rw [first.unique first']
      | unterminated unclosed all =>
          obtain rfl := takes.unique (.unclosed unclosed)
          exact absurd all first.not_allSupported
  | unterminated unclosed all =>
      cases rule' with
      | text closes _ _ => exact absurd closes (unclosed _)
      | badEscape takes first =>
          obtain rfl := takes.unique (.unclosed unclosed)
          exact absurd all first.not_allSupported
      | unterminated _ _ => rfl

theorem Quoted.closesAfter {content body : List Char} (quoted : Quoted content body)
    (rest : List Char) : ClosesAfter (body ++ '\x22' :: rest) body where
  quote := ⟨rest, by simp⟩
  unescaped := quoted.unescaped
  first := fun _ quote unescaped => quoted.length_le_of_quote quote unescaped

theorem Quoted.allSupported {content body : List Char} (quoted : Quoted content body) :
    AllSupported body := by
  intro front letter escape
  rw [← List.append_nil body] at escape
  refine (quoted.supported_or_length_le escape).resolve_right fun longer => ?_
  have inside := escape.stands.length_le
  simp at inside
  omega

/-- The line ends after contents that are in order, perhaps with a backslash. -/
theorem Quoted.unterminated {content body tail : List Char} (quoted : Quoted content body)
    (ends : tail = [] ∨ tail = ['\\']) :
    TextRule (body ++ tail) (.error .unterminatedString) := by
  have short : tail.length ≤ 1 := by obtain rfl | rfl := ends <;> simp
  refine .unterminated (fun other closes => ?_) fun front letter escape => ?_
  · have longer := quoted.length_le_of_quote closes.quote closes.unescaped
    have inside := closes.quote.length_le
    simp only [List.length_append, List.length_singleton] at inside
    obtain rfl | rfl := ends
    · simp at inside
      omega
    · have same := closes.quote.eq_of_length (by simp at inside ⊢; omega)
      cases (List.append_inj' same rfl).2
  · refine (quoted.supported_or_length_le escape).resolve_right fun longer => ?_
    have inside := escape.stands.length_le
    simp at inside
    omega

/-- An escape that is not supported stands after contents that are in order. -/
theorem Quoted.badEscape {content body : List Char} (quoted : Quoted content body) {letter : Char}
    (unsupported : ¬ Supported letter) (rest : List Char) :
    TextRule (body ++ '\\' :: letter :: rest) (.error (.invalidEscape letter)) := by
  have first (more : List Char) : FirstUnsupported (body ++ '\\' :: letter :: more) letter := by
    refine ⟨body, ⟨⟨more, by simp⟩, quoted.unescaped⟩, unsupported, fun other earlier escape => ?_⟩
    intro shorter
    exact (quoted.supported_or_length_le escape).resolve_right (Nat.not_le.mpr shorter)
  by_cases closed : ∃ other, ClosesAfter (body ++ '\\' :: letter :: rest) other
  · obtain ⟨other, closes⟩ := closed
    -- The quote cannot stand before the escape or in it, so it stands behind.
    have isFront : other <+: body ++ '\\' :: letter :: rest :=
      (List.prefix_append other _).trans closes.quote
    have behind : body ++ ['\\', letter] <+: other := by
      have longer := quoted.length_le_of_quote closes.quote closes.unescaped
      obtain same | one | more : other.length = body.length ∨ other.length = body.length + 1 ∨
          body.length + 2 ≤ other.length := by omega
      · have here : body ++ ['\\'] <+: body ++ '\\' :: letter :: rest := ⟨letter :: rest, by simp⟩
        have equal := eq_of_prefixes closes.quote here (by simp [same])
        cases (List.append_inj' equal rfl).2
      · have here : body ++ ['\\'] <+: body ++ '\\' :: letter :: rest := ⟨letter :: rest, by simp⟩
        have equal := eq_of_prefixes isFront here (by simp [one])
        exact absurd (equal ▸ closes.unescaped) (not_unescaped_backslash quoted.unescaped)
      · have here : body ++ ['\\', letter] <+: body ++ '\\' :: letter :: rest := ⟨rest, by simp⟩
        exact List.prefix_of_prefix_length_le here isFront (by simpa using more)
    obtain ⟨more, rfl⟩ := behind
    rw [List.append_assoc] at closes
    exact .badEscape (.closed closes) (first more)
  · exact .badEscape (.unclosed (not_exists.mp closed)) (first rest)

/-- The literal with these contents, decoded and as they are written. -/
def literal (content body : List Char) : Lexeme :=
  ⟨.text, String.ofList content, '\x22' :: (body ++ ['\x22'])⟩

theorem literal_injective {content body content' body' : List Char}
    (same : literal content body = literal content' body') : content = content' ∧ body = body' := by
  simpa [literal, String.ofList_inj] using same

/-- The rule finds what the scan finds. -/
theorem exists_textRule (rest : List Char) :
    ∃ outcome, TextRule (firstLine rest) outcome ∧
      scan '\x22' rest = outcome.map fun read =>
        (literal read.1 read.2, rest.drop (read.2.length + 1)) := by
  change ∃ outcome, _ ∧ scanString [] ['\x22'] rest = _
  cases scanned : scanString [] ['\x22'] rest with
  | ok found =>
      obtain ⟨lexeme, remaining⟩ := found
      obtain ⟨content, body, rfl, quoted, rfl⟩ := quoted_of_scanString scanned
      refine ⟨.ok (content, body), ?_, by simp [Except.map, literal]⟩
      rw [firstLine_append quoted.no_newline, firstLine_cons (by decide)]
      exact .text (quoted.closesAfter _) quoted.allSupported quoted
  | error fault =>
      obtain ⟨content, body, tail, rfl, quoted, broken⟩ := breaksOff_of_scanString scanned
      refine ⟨.error fault, ?_, rfl⟩
      rw [firstLine_append quoted.no_newline]
      cases broken with
      | sourceEnds | lineEnds => exact quoted.unterminated (.inl rfl)
      | sourceEndsEscaped | lineEndsEscaped => exact quoted.unterminated (.inr rfl)
      | noEscape newline unknown =>
          rw [firstLine_cons (by decide), firstLine_cons newline]
          exact quoted.badEscape (not_exists.mpr unknown) _

theorem textRule_iff_scan (rest : List Char)
    (outcome : Except LexicalFault (List Char × List Char)) :
    TextRule (firstLine rest) outcome ↔
      scan '\x22' rest = outcome.map fun read =>
        (literal read.1 read.2, rest.drop (read.2.length + 1)) := by
  obtain ⟨found, rule, scanned⟩ := exists_textRule rest
  constructor
  · intro rule'
    rw [rule'.unique rule, scanned]
  · intro scanned'
    rw [scanned] at scanned'
    suffices same : outcome = found by rwa [same]
    cases found with
    | error fault =>
        cases outcome with
        | error fault' => cases scanned'; rfl
        | ok read' => cases scanned'
    | ok read =>
        cases outcome with
        | error fault' => cases scanned'
        | ok read' =>
            obtain ⟨content, body⟩ := literal_injective (congrArg Prod.fst (Except.ok.inj scanned'))
            exact congrArg Except.ok (Prod.ext content.symm body.symm)

end Lexeme

namespace Token
open Lexeme

/-- What follows an opening quote is read by the rule that pairs backslashes off, on the line alone.
Where it finds a literal, the token covers both quotes and what is between them, has the decoded
contents as its text, and reading goes on behind it. Where it finds a fault, reading fails with it
at the opening quote. What comes after the line has no influence. -/
theorem readFrom_text_by_rule (rest : List Char) :
    (∃! outcome, TextRule (firstLine rest) outcome) ∧
    (∀ outcome, TextRule (firstLine rest) outcome ↔
      scan '\x22' rest = outcome.map fun read =>
        (literal read.1 read.2, rest.drop (read.2.length + 1))) ∧
    (∀ content body, TextRule (firstLine rest) (.ok (content, body)) →
      ∀ tokens position, readFrom tokens position ('\x22' :: rest) =
        readFrom (⟨.text, String.ofList content, byteLength body + 2, position⟩ :: tokens)
          (position.after ('\x22' :: (body ++ ['\x22']))) (rest.drop (body.length + 1))) ∧
    (∀ fault, TextRule (firstLine rest) (.error fault) →
      ∀ tokens position, readFrom tokens position ('\x22' :: rest) = .error ⟨fault, position⟩) ∧
    ∀ other, firstLine other = firstLine rest →
      (scan '\x22' other).map Prod.fst = (scan '\x22' rest).map Prod.fst := by
  refine ⟨?_, textRule_iff_scan rest, ?_, ?_, ?_⟩
  · obtain ⟨outcome, rule, _⟩ := exists_textRule rest
    exact ⟨outcome, rule, fun other rule' => rule'.unique rule⟩
  · intro content body rule tokens position
    rw [readFrom_scanned rfl ((textRule_iff_scan rest _).mp rule)]
    have length : byteLength ('\x22' :: (body ++ ['\x22'])) = byteLength body + 2 := by
      rw [byteLength_cons, byteLength_append]
      exact Nat.add_comm _ _
    rw [ofLexeme, literal, length]
  · intro fault rule tokens position
    exact readFrom_faulty rfl ((textRule_iff_scan rest _).mp rule) tokens position
  · intro other same
    obtain ⟨outcome, rule, scanned⟩ := exists_textRule rest
    rw [← same] at rule
    rw [(textRule_iff_scan other outcome).mp rule, scanned]
    cases outcome <;> rfl

end Token
end LineScript
