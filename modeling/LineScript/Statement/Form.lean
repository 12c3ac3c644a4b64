import LineScript.Numeral
import LineScript.Statement

/-!
Statements from tokens. A statement is recognised at the front of the tokens still to be read: its
forms are tried in a fixed order and the first whose pattern fits decides, even when it cannot
read an operand. What fits no pattern can still be a call, which takes operands for as long as
there are any.
-/

namespace LineScript

structure InvalidStatement where
  position : Position
deriving DecidableEq, Repr

def InvalidStatement.message (_ : InvalidStatement) : String :=
  "invalid statement"

namespace Token.Kind

def isOperand : Token.Kind → Bool
  | .integer | .text | .identifier => true
  | _ => false

def arithmetic? : Token.Kind → Option Arithmetic
  | .arithmetic op => some op
  | _ => none

def comparison? : Token.Kind → Option Comparison
  | .comparison op => some op
  | _ => none

theorem arithmetic?_eq_some {kind : Token.Kind} {op : Arithmetic}
    (h : kind.arithmetic? = some op) : kind = .arithmetic op := by
  cases kind <;> simp_all [arithmetic?]

theorem comparison?_eq_some {kind : Token.Kind} {op : Comparison}
    (h : kind.comparison? = some op) : kind = .comparison op := by
  cases kind <;> simp_all [comparison?]

end Token.Kind

/-- The kinds accepted at each place, from the front on. -/
abbrev Pattern := List (Token.Kind → Bool)

namespace Pattern

/-- Whether the tokens begin as the pattern says; what follows them does not matter. -/
def fits : Pattern → List Token → Bool
  | [], _ => true
  | _ :: _, [] => false
  | accepts :: pattern, token :: tokens => accepts token.kind && fits pattern tokens

def assign : Pattern :=
  [(· == .identifier), (· == .assign), Token.Kind.isOperand, (· == .endOfStatement)]

def compute : Pattern :=
  [(· == .identifier), (· == .assign), Token.Kind.isOperand, (·.arithmetic?.isSome),
    Token.Kind.isOperand, (· == .endOfStatement)]

def branch : Pattern :=
  [(· == .keyword .conditional), Token.Kind.isOperand, (·.comparison?.isSome),
    Token.Kind.isOperand, (· == .keyword .goto), (· == .identifier), (· == .endOfStatement)]

def label : Pattern :=
  [(· == .label), (· == .endOfStatement)]

def jump : Pattern :=
  [(· == .keyword .goto), (· == .identifier), (· == .endOfStatement)]

def halt : Pattern :=
  [(· == .keyword .halt), (· == .endOfStatement)]

@[simp] theorem fits_cons_iff (accepts : Token.Kind → Bool) (pattern : Pattern)
    (tokens : List Token) :
    fits (accepts :: pattern) tokens = true ↔
      ∃ token rest, tokens = token :: rest ∧ accepts token.kind = true ∧
        fits pattern rest = true := by
  cases tokens with
  | nil => simp [fits]
  | cons token rest =>
      constructor
      · intro h
        exact ⟨token, rest, rfl, by simpa only [fits, Bool.and_eq_true] using h⟩
      · rintro ⟨_, _, same, h⟩
        cases same
        simpa only [fits, Bool.and_eq_true] using h

end Pattern

namespace Operand

/-- An integer token is an operand when its text is a numeral that fits a word. -/
def ofToken? (token : Token) : Option Operand :=
  match token.kind with
  | .integer => (Numeral.readWord? token.text).map fun value => ⟨.integer value, token⟩
  | .text => some ⟨.text token.text, token⟩
  | .identifier => some ⟨.variable token.text, token⟩
  | _ => none

end Operand

def Destination.ofToken (token : Token) : Destination :=
  ⟨token.text, token.position⟩

/-- A pattern and what the tokens say that fit it. -/
structure Form where
  pattern : Pattern
  read : List Token → Option Statement

namespace Statement

def readAssign : List Token → Option Statement
  | target :: _ :: value :: _ => (Operand.ofToken? value).map (.assign target.text)
  | _ => none

def readCompute : List Token → Option Statement
  | target :: _ :: lhs :: operator :: rhs :: _ => do
      let op ← operator.kind.arithmetic?
      let lhs ← Operand.ofToken? lhs
      let rhs ← Operand.ofToken? rhs
      some (.compute target.text op lhs rhs)
  | _ => none

def readBranch : List Token → Option Statement
  | _ :: lhs :: operator :: rhs :: _ :: name :: _ => do
      let op ← operator.kind.comparison?
      let lhs ← Operand.ofToken? lhs
      let rhs ← Operand.ofToken? rhs
      some (.branch op lhs rhs (.ofToken name))
  | _ => none

def readLabel : List Token → Option Statement
  | name :: _ => some (.label name.text)
  | _ => none

def readJump : List Token → Option Statement
  | _ :: name :: _ => some (.jump (.ofToken name))
  | _ => none

/-- The forms of a statement that is no call, in the order in which they are tried. -/
def forms : List Form :=
  [⟨.assign, readAssign⟩, ⟨.compute, readCompute⟩, ⟨.branch, readBranch⟩,
    ⟨.label, readLabel⟩, ⟨.jump, readJump⟩, ⟨.halt, fun _ => some .halt⟩]

/-- A call from its name on. -/
def namedCall? : List Token → Option (Statement × List Token)
  | [] => none
  | name :: rest =>
      if name.kind = .identifier then do
        let args ← (rest.takeWhile (·.kind.isOperand)).mapM Operand.ofToken?
        match rest.dropWhile (·.kind.isOperand) with
        | [] => none
        | stop :: following =>
            if stop.kind = .endOfStatement then
              some (.call name.text args name.position, following)
            else none
      else none

/-- A call, with or without the keyword in front. -/
def call? : List Token → Option (Statement × List Token)
  | [] => none
  | first :: rest =>
      if first.kind = .keyword .call then namedCall? rest else namedCall? (first :: rest)

/-- The statement at the front, and the tokens after the one that ends it. -/
def front? (tokens : List Token) : Option (Statement × List Token) :=
  match forms.find? fun form => form.pattern.fits tokens with
  | some form =>
      (form.read tokens).map fun statement => (statement, tokens.drop form.pattern.length)
  | none => call? tokens

theorem namedCall?_shorter {tokens following : List Token} {statement : Statement}
    (h : namedCall? tokens = some (statement, following)) :
    following.length < tokens.length := by
  cases tokens with
  | nil => cases h
  | cons name rest =>
      have shorter := (rest.dropWhile_sublist (·.kind.isOperand)).length_le
      simp only [namedCall?, Option.ite_none_right_eq_some, Option.bind_eq_bind,
        Option.bind_eq_some_iff] at h
      obtain ⟨_, args, _, h⟩ := h
      split at h
      · cases h
      · next after =>
          rw [after] at shorter
          simp only [Option.ite_none_right_eq_some, Option.some.injEq, Prod.mk.injEq] at h
          obtain ⟨_, _, rfl⟩ := h
          simp only [List.length_cons] at shorter ⊢
          omega

theorem front?_shorter {tokens following : List Token} {statement : Statement}
    (h : front? tokens = some (statement, following)) : following.length < tokens.length := by
  unfold front? at h
  split at h
  · next form found =>
      have nonempty : ∀ form ∈ forms, 0 < form.pattern.length := by decide
      have positive := nonempty form (List.mem_of_find?_eq_some found)
      have fits := List.find?_some found
      simp only [Option.map_eq_some_iff, Prod.mk.injEq] at h
      obtain ⟨_, _, _, rfl⟩ := h
      cases pattern : form.pattern with
      | nil => simp [pattern] at positive
      | cons accepts others =>
          rw [pattern, Pattern.fits_cons_iff] at fits
          obtain ⟨first, rest, rfl, _⟩ := fits
          simp only [List.length_drop, List.length_cons]
          omega
  · cases tokens with
    | nil => cases h
    | cons first rest =>
        simp only [call?] at h
        split at h
        · exact Nat.lt_succ_of_lt (namedCall?_shorter h)
        · exact namedCall?_shorter h

end Statement

namespace Program

/-- Reads statement by statement. `statements` holds, in reverse, what was read before. -/
def readFrom (statements : List Statement) (tokens : List Token) :
    Except InvalidStatement (List Statement) :=
  match tokens with
  | [] => .ok statements.reverse
  | first :: rest =>
      match _read : Statement.front? (first :: rest) with
      | some (statement, following) => readFrom (statement :: statements) following
      | none =>
          if first.kind = .endOfStatement then readFrom statements rest
          else .error ⟨first.position⟩
termination_by tokens.length
decreasing_by
  · exact Statement.front?_shorter _read
  · exact Nat.lt_succ_self _

def ofTokens (tokens : List Token) : Except InvalidStatement Program :=
  (readFrom [] tokens).map List.toArray

end Program
end LineScript
