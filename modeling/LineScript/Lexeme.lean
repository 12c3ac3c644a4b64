import LineScript.Numeral
import LineScript.Text.Quoted
import LineScript.Token

/-!
Lexemes: the shortest stretches of source with a meaning of their own. A lexeme is chosen by its
first character and takes as much of the source as it can. `Lexeme.scan` splits the source into the
lexeme at its front and the rest, so nothing is lost between lexemes.
-/

namespace LineScript

inductive LexicalFault
  | invalidInteger
  | integerOutOfRange
  | invalidLabel
  | invalidOperator
  | unterminatedString
  | invalidEscape (escape : Char)
  | unexpectedCharacter (character : Char)
deriving DecidableEq, Repr

namespace LexicalFault

def message : LexicalFault → String
  | .invalidInteger => "invalid integer literal"
  | .integerOutOfRange => "integer literal does not fit in 64 bits"
  | .invalidLabel => "invalid label"
  | .invalidOperator => "invalid operator"
  | .unterminatedString => "unterminated string literal"
  | .invalidEscape escape => "invalid escape sequence '\\" ++ escape.toString ++ "'"
  | .unexpectedCharacter character =>
      "unexpected character: " ++ Text.quotedCharacter character

def hint? : LexicalFault → Option String
  | .invalidInteger | .integerOutOfRange =>
      some "integer literals must be in decimal or hexadecimal (0x) format"
  | .invalidEscape _ => some "supported escapes are \\\" \\\\ \\n \\t \\r and \\0"
  | _ => none

end LexicalFault

/-- `spelling` is the stretch of source that the lexeme covers. -/
structure Lexeme where
  kind : Token.Kind
  text : String
  spelling : List Char
deriving DecidableEq, Repr

namespace Lexeme

def isBlank (c : Char) : Bool :=
  c = ' ' || c = '\t' || c = '\r'

def startsWord (c : Char) : Bool :=
  c.isAlpha || c = '_'

def continuesWord (c : Char) : Bool :=
  c.isAlphanum || c = '_'

/-- The character that a backslash and `c` stand for in a string. -/
def escape? (c : Char) : Option Char :=
  if c = '\x22' ∨ c = '\\' then some c
  else if c = 'n' then some '\n'
  else if c = 't' then some '\t'
  else if c = 'r' then some '\r'
  else if c = '0' then some '\x00'
  else none

/-- Longer spellings stand before their prefixes, so the first that fits is the longest. -/
def operators : List (String × Token.Kind) :=
  [.le, .ge, .eq, .ne].map (fun op => (op.spelling, .comparison op)) ++
    ("=", .assign) :: [.lt, .gt].map (fun op => (op.spelling, .comparison op)) ++
    [.add, .sub, .mul, .div, .mod, .pow].map (fun op => (op.spelling, .arithmetic op))

def isOperatorChar (c : Char) : Bool :=
  c ∈ ['=', '<', '>', '!', '+', '-', '*', '/', '%', '^']

def wordKind (word : String) : Token.Kind :=
  match Keyword.all.find? fun keyword => keyword.spelling = word with
  | some keyword => .keyword keyword
  | none => .identifier

def scanWord (source : List Char) : Lexeme × List Char :=
  let word := source.takeWhile continuesWord
  let text := String.ofList word
  (⟨wordKind text, text, word⟩, source.dropWhile continuesWord)

/-- Digits and letters that run together are one numeral, valid or not. -/
def scanInteger (source : List Char) : Except LexicalFault (Lexeme × List Char) :=
  let run := source.takeWhile continuesWord
  match Numeral.literal? run with
  | none => .error .invalidInteger
  | some value =>
      if value ≤ Int64.maxValue.toNatClampNeg then
        .ok (⟨.integer, Numeral.ofNat value, run⟩, source.dropWhile continuesWord)
      else .error .integerOutOfRange

/-- Scans what follows a colon. -/
def scanLabel (source : List Char) : Except LexicalFault (Lexeme × List Char) :=
  if source.head?.any startsWord then
    let name := source.takeWhile continuesWord
    .ok (⟨.label, String.ofList name, ':' :: name⟩, source.dropWhile continuesWord)
  else .error .invalidLabel

def scanOperator (source : List Char) : Except LexicalFault (Lexeme × List Char) :=
  match operators.find? fun operator => operator.1.toList.isPrefixOf source with
  | some (spelling, kind) =>
      .ok (⟨kind, spelling, spelling.toList⟩, source.drop spelling.length)
  | none => .error .invalidOperator

/-- Scans the rest of a string. `content` and `spelling` hold, in reverse, what was decoded and what
was passed since the opening quote. -/
def scanString (content spelling : List Char) :
    List Char → Except LexicalFault (Lexeme × List Char)
  | '\x22' :: rest =>
      .ok (⟨.text, String.ofList content.reverse, ('\x22' :: spelling).reverse⟩, rest)
  | '\\' :: c :: rest =>
      if c = '\n' then .error .unterminatedString
      else
        match escape? c with
        | some decoded => scanString (decoded :: content) (c :: '\\' :: spelling) rest
        | none => .error (.invalidEscape c)
  | c :: rest =>
      if c = '\n' ∨ c = '\\' then .error .unterminatedString
      else scanString (c :: content) (c :: spelling) rest
  | [] => .error .unterminatedString

/-- The lexeme at the front of a source whose first character is no blank, and what follows it. -/
def scan (first : Char) (rest : List Char) : Except LexicalFault (Lexeme × List Char) :=
  if first = '\n' then .ok (⟨.endOfStatement, "", ['\n']⟩, rest)
  else if first.isDigit then scanInteger (first :: rest)
  else if startsWord first then .ok (scanWord (first :: rest))
  else if first = ':' then scanLabel rest
  else if first = '\x22' then scanString [] ['\x22'] rest
  else if isOperatorChar first then scanOperator (first :: rest)
  else .error (.unexpectedCharacter first)

theorem scanString_covers {content spelling source : List Char} {lexeme : Lexeme}
    {rest : List Char} (h : scanString content spelling source = .ok (lexeme, rest)) :
    lexeme.spelling ++ rest = spelling.reverse ++ source ∧
      spelling.length < lexeme.spelling.length := by
  fun_induction scanString content spelling source with
  | case1 => cases h; simp
  | case2 | case4 | case5 | case7 => cases h
  | case3 _ _ _ _ _ _ _ ih =>
      have hc := ih h
      simp only [List.length_cons] at hc
      exact ⟨by simpa using hc.1, by omega⟩
  | case6 _ _ _ _ _ _ _ ih =>
      have hc := ih h
      simp only [List.length_cons] at hc
      exact ⟨by simpa using hc.1, by omega⟩

theorem scanOperator_covers {source rest : List Char} {lexeme : Lexeme}
    (h : scanOperator source = .ok (lexeme, rest)) :
    lexeme.spelling ++ rest = source ∧ lexeme.spelling ≠ [] := by
  unfold scanOperator at h
  split at h
  · next spelling kind found =>
      cases h
      have member := List.mem_of_find?_eq_some found
      have fits := List.find?_some found
      obtain ⟨tail, rfl⟩ := List.isPrefixOf_iff_prefix.mp fits
      have nonempty : ∀ operator ∈ operators, operator.1.toList ≠ [] := by decide
      exact ⟨by simp [← String.length_toList], nonempty _ member⟩
  · cases h

private theorem word_nonempty {first : Char} (rest : List Char) (h : continuesWord first = true) :
    (first :: rest).takeWhile continuesWord ≠ [] := by
  simp [h]

/-- A scan splits the source: the lexeme's spelling is its front, and is not empty. -/
theorem scan_covers {first : Char} {rest remaining : List Char} {lexeme : Lexeme}
    (h : scan first rest = .ok (lexeme, remaining)) :
    lexeme.spelling ++ remaining = first :: rest ∧ lexeme.spelling ≠ [] := by
  unfold scan at h
  split at h
  · next newline => cases h; simp [newline]
  split at h
  · next digit =>
      unfold scanInteger at h
      simp only at h
      split at h
      · cases h
      · split at h
        · cases h
          exact ⟨List.takeWhile_append_dropWhile,
            word_nonempty rest (by simp [continuesWord, Char.isAlphanum, digit])⟩
        · cases h
  split at h
  · next start =>
      cases h
      refine ⟨List.takeWhile_append_dropWhile, word_nonempty rest ?_⟩
      simp only [startsWord, continuesWord, Char.isAlphanum, Bool.or_eq_true] at start ⊢
      exact start.imp_left .inl
  split at h
  · next colon =>
      unfold scanLabel at h
      simp only at h
      split at h
      · cases h
        simp [colon]
      · cases h
  split at h
  · next quote =>
      have hc := scanString_covers h
      exact ⟨by simpa [quote] using hc.1, fun empty => by simp [empty] at hc⟩
  split at h
  · exact scanOperator_covers h
  · cases h

theorem scan_remaining_length {first : Char} {rest remaining : List Char} {lexeme : Lexeme}
    (h : scan first rest = .ok (lexeme, remaining)) : remaining.length ≤ rest.length := by
  obtain ⟨covers, nonempty⟩ := scan_covers h
  have total := congrArg List.length covers
  have := List.length_pos_iff.mpr nonempty
  simp only [List.length_append, List.length_cons] at total
  omega

end Lexeme
end LineScript
