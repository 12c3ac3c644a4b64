import LineScript.Proofs.Lexicon
import LineScript.Statement
import Mathlib.Data.List.Forall2

/-!
Spelling: the ways in which statements can be written as source text, and which statements have any.
-/

namespace LineScript

namespace Lexeme

/-- A word that is no keyword. -/
def IsName (name : String) : Prop :=
  IsWord name.toList ∧ ∀ keyword : Keyword, name ≠ keyword.spelling

end Lexeme

/-- A term and the ways to write it: integers in decimal or hexadecimal, texts between quotes. -/
inductive Operand.Spelled : Operand.Term → List Char → Prop
  | integer {value : Int64} {magnitude : Nat} {numeral : List Char} :
      Numeral.Literal numeral magnitude → value.toInt = magnitude →
      Spelled (.integer value) numeral
  | text {content body : List Char} : Lexeme.Quoted content body →
      Spelled (.text (String.ofList content)) ('\x22' :: (body ++ ['\x22']))
  | variable {name : String} : Lexeme.IsName name → Spelled (.variable name) name.toList

/-- A statement and the ways to write it, word by word. -/
inductive Statement.Spelled : Statement → List (List Char) → Prop
  | assign {target : String} {value : Operand} {source : List Char} : Lexeme.IsName target →
      Operand.Spelled value.term source →
      Spelled (.assign target value) [target.toList, ['='], source]
  | compute {target : String} {op : Arithmetic} {lhs rhs : Operand} {left right : List Char} :
      Lexeme.IsName target → Operand.Spelled lhs.term left → Operand.Spelled rhs.term right →
      Spelled (.compute target op lhs rhs)
        [target.toList, ['='], left, op.spelling.toList, right]
  | branch {op : Comparison} {lhs rhs : Operand} {left right : List Char}
      {destination : Destination} : Operand.Spelled lhs.term left →
      Operand.Spelled rhs.term right → Lexeme.IsName destination.label →
      Spelled (.branch op lhs rhs destination)
        ["if".toList, left, op.spelling.toList, right, "goto".toList, destination.label.toList]
  | label {name : String} : Lexeme.IsWord name.toList →
      Spelled (.label name) [':' :: name.toList]
  | jump {destination : Destination} : Lexeme.IsName destination.label →
      Spelled (.jump destination) ["goto".toList, destination.label.toList]
  | halt : Spelled .halt ["end".toList]
  | call {name : String} {args : List Operand} {operands : List (List Char)}
      {position : Position} : Lexeme.IsName name →
      List.Forall₂ (fun operand source => Operand.Spelled operand.term source) args operands →
      Spelled (.call name args position) (name.toList :: operands)
  | keywordCall {name : String} {args : List Operand} {operands : List (List Char)}
      {position : Position} : Lexeme.IsName name →
      List.Forall₂ (fun operand source => Operand.Spelled operand.term source) args operands →
      Spelled (.call name args position) ("call".toList :: name.toList :: operands)

/-- Words with blanks between them, at least one each time. -/
inductive Line.Spaced : List (List Char) → List Char → Prop
  | single {word : List Char} : Spaced [word] word
  | cons {word gap line : List Char} {words : List (List Char)} : gap ≠ [] →
      (∀ c ∈ gap, Lexeme.isBlank c = true) → Spaced words line →
      Spaced (word :: words) (word ++ (gap ++ line))

/-- Statements written one on a line. A line feed after the last is not needed. -/
inductive Program.Spelled : List Statement → List Char → Prop
  | nil : Spelled [] []
  | last {statement : Statement} {words : List (List Char)} {line : List Char} :
      statement.Spelled words → Line.Spaced words line → Spelled [statement] line
  | cons {statement : Statement} {words : List (List Char)} {line source : List Char}
      {statements : List Statement} : statement.Spelled words → Line.Spaced words line →
      Spelled statements source → Spelled (statement :: statements) (line ++ '\n' :: source)

/-- Whether a term can be written: no integer has a sign, and every text has its escapes. -/
def Operand.Term.Spellable : Operand.Term → Prop
  | .integer value => 0 ≤ value
  | .text _ => True
  | .variable name => Lexeme.IsName name

/-- Whether a statement can be written. A label may be a keyword where it is defined, never where it
is jumped to. -/
def Statement.Spellable : Statement → Prop
  | .assign target value => Lexeme.IsName target ∧ value.term.Spellable
  | .compute target _ lhs rhs =>
      Lexeme.IsName target ∧ lhs.term.Spellable ∧ rhs.term.Spellable
  | .branch _ lhs rhs destination =>
      lhs.term.Spellable ∧ rhs.term.Spellable ∧ Lexeme.IsName destination.label
  | .label name => Lexeme.IsWord name.toList
  | .jump destination => Lexeme.IsName destination.label
  | .halt => True
  | .call name args _ => Lexeme.IsName name ∧ ∀ arg ∈ args, arg.term.Spellable

theorem Lexeme.exists_quoted (content : List Char) : ∃ body, Quoted content body := by
  induction content with
  | nil => exact ⟨[], .nil⟩
  | cons c content ih =>
      obtain ⟨body, quoted⟩ := ih
      by_cases quote : c = '\x22'
      · exact ⟨_, .escaped (quote ▸ (by decide : ('\x22', '\x22') ∈ escapes)) quoted⟩
      by_cases backslash : c = '\\'
      · exact ⟨_, .escaped (backslash ▸ (by decide : ('\\', '\\') ∈ escapes)) quoted⟩
      by_cases newline : c = '\n'
      · exact ⟨_, .escaped (newline ▸ (by decide : ('n', '\n') ∈ escapes)) quoted⟩
      · exact ⟨_, .plain quote backslash newline quoted⟩

theorem Operand.exists_spelled_iff (term : Term) :
    (∃ source, Operand.Spelled term source) ↔ term.Spellable := by
  constructor
  · rintro ⟨_, ⟨_, same⟩ | _ | isName⟩
    · rw [Term.Spellable, Int64.le_iff_toInt_le, same]
      exact Int.natCast_nonneg _
    · trivial
    · exact isName
  · intro spellable
    cases term with
    | integer value =>
        have nonneg : 0 ≤ value.toInt := Int64.le_iff_toInt_le.mp spellable
        have magnitude : Numeral.decimalValue (Nat.toDigits 10 value.toInt.toNat) =
            value.toInt.toNat := Nat.ofDigitChars_ten_toDigits
        refine ⟨_, .integer (.decimal (Numeral.digitRun_toDigits value.toInt.toNat)) ?_⟩
        rw [magnitude, Int.toNat_of_nonneg nonneg]
    | text content =>
        obtain ⟨body, quoted⟩ := Lexeme.exists_quoted content.toList
        have spelled := Spelled.text quoted
        rw [String.ofList_toList] at spelled
        exact ⟨_, spelled⟩
    | «variable» name => exact ⟨_, .variable spellable⟩

theorem Operand.exists_spelled_all_iff (args : List Operand) :
    (∃ sources, List.Forall₂ (fun operand source => Operand.Spelled operand.term source) args
        sources) ↔ ∀ arg ∈ args, arg.term.Spellable := by
  induction args with
  | nil => simp
  | cons arg args ih =>
      rw [List.forall_mem_cons, ← ih, ← exists_spelled_iff]
      constructor
      · rintro ⟨_, _ | ⟨first, others⟩⟩
        exact ⟨⟨_, first⟩, ⟨_, others⟩⟩
      · rintro ⟨⟨_, first⟩, _, others⟩
        exact ⟨_, .cons first others⟩

theorem Statement.exists_spelled_iff (statement : Statement) :
    (∃ words, statement.Spelled words) ↔ statement.Spellable := by
  cases statement with
  | assign target value =>
      rw [Spellable, ← Operand.exists_spelled_iff]
      constructor
      · rintro ⟨_, _ | _⟩
        exact ⟨‹_›, _, ‹_›⟩
      · rintro ⟨isName, _, spelled⟩
        exact ⟨_, .assign isName spelled⟩
  | compute target op lhs rhs =>
      simp only [Spellable, ← Operand.exists_spelled_iff]
      constructor
      · rintro ⟨_, _ | _⟩
        exact ⟨‹_›, ⟨_, ‹_›⟩, ⟨_, ‹_›⟩⟩
      · rintro ⟨isName, ⟨_, left⟩, _, right⟩
        exact ⟨_, .compute isName left right⟩
  | branch op lhs rhs destination =>
      simp only [Spellable, ← Operand.exists_spelled_iff]
      constructor
      · rintro ⟨_, _ | _⟩
        exact ⟨⟨_, ‹_›⟩, ⟨_, ‹_›⟩, ‹_›⟩
      · rintro ⟨⟨_, left⟩, ⟨_, right⟩, isName⟩
        exact ⟨_, .branch left right isName⟩
  | label name =>
      constructor
      · rintro ⟨_, _ | _⟩
        assumption
      · exact fun isWord => ⟨_, .label isWord⟩
  | jump destination =>
      constructor
      · rintro ⟨_, _ | _⟩
        assumption
      · exact fun isName => ⟨_, .jump isName⟩
  | halt => exact ⟨fun _ => trivial, fun _ => ⟨_, .halt⟩⟩
  | call name args position =>
      rw [Spellable, ← Operand.exists_spelled_all_iff]
      constructor
      · rintro ⟨_, _ | _ | _⟩ <;> exact ⟨‹_›, _, ‹_›⟩
      · rintro ⟨isName, _, spelled⟩
        exact ⟨_, .call isName spelled⟩

theorem Line.exists_spaced {words : List (List Char)} (nonempty : words ≠ []) :
    ∃ line, Spaced words line := by
  induction words with
  | nil => contradiction
  | cons word words ih =>
      by_cases last : words = []
      · exact ⟨word, last ▸ .single⟩
      · obtain ⟨line, spaced⟩ := ih last
        exact ⟨_, .cons (List.cons_ne_nil ' ' []) (List.forall_mem_singleton.mpr rfl) spaced⟩

theorem Statement.Spelled.ne_nil {statement : Statement} {words : List (List Char)}
    (spelled : statement.Spelled words) : words ≠ [] := by
  cases spelled <;> exact List.cons_ne_nil _ _

/-- Which statements can be written as source text. -/
theorem Program.exists_spelled_iff (statements : List Statement) :
    (∃ source, Program.Spelled statements source) ↔
      ∀ statement ∈ statements, statement.Spellable := by
  induction statements with
  | nil => exact ⟨fun _ => List.forall_mem_nil _, fun _ => ⟨[], .nil⟩⟩
  | cons statement statements ih =>
      rw [List.forall_mem_cons, ← ih, ← Statement.exists_spelled_iff]
      constructor
      · rintro ⟨_, _ | ⟨spelled, _⟩ | ⟨spelled, _, others⟩⟩
        · exact ⟨⟨_, spelled⟩, [], .nil⟩
        · exact ⟨⟨_, spelled⟩, _, others⟩
      · rintro ⟨⟨words, spelled⟩, _, others⟩
        obtain ⟨line, spaced⟩ := Line.exists_spaced spelled.ne_nil
        exact ⟨_, .cons spelled spaced others⟩

end LineScript
