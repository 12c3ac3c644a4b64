import LineScript.Proofs.Decimal
import LineScript.Statement.Form
import Mathlib.Data.List.Forall2

/-!
The grammar of statements, line by line, apart from how it is read. A line is what one end-of-
statement token closes, and its tokens write a statement or nothing.
-/

namespace LineScript

/-- The shapes that a line can have. -/
inductive Shape
  | assign
  | compute
  | branch
  | label
  | jump
  | halt
  | call
deriving DecidableEq, Repr

/-- An operand as its token writes it. -/
inductive Operand.Written : Token → Operand → Prop
  | integer {token : Token} {value : Int64} : token.kind = .integer →
      Numeral.Decimal token.text.toList value.toInt → Written token ⟨.integer value, token⟩
  | text {token : Token} : token.kind = .text → Written token ⟨.text token.text, token⟩
  | variable {token : Token} : token.kind = .identifier →
      Written token ⟨.variable token.text, token⟩

/-- A statement as the tokens of its line write it, without the one that ends the line. -/
inductive Statement.Written : Shape → List Token → Statement → Prop
  | assign {target equals source : Token} {value : Operand} :
      target.kind = .identifier → equals.kind = .assign → Operand.Written source value →
      Written .assign [target, equals, source] (.assign target.text value)
  | compute {target equals left operator right : Token} {op : Arithmetic} {lhs rhs : Operand} :
      target.kind = .identifier → equals.kind = .assign → Operand.Written left lhs →
      operator.kind = .arithmetic op → Operand.Written right rhs →
      Written .compute [target, equals, left, operator, right]
        (.compute target.text op lhs rhs)
  | branch {conditional left operator right goto name : Token} {op : Comparison}
      {lhs rhs : Operand} :
      conditional.kind = .keyword .conditional → Operand.Written left lhs →
      operator.kind = .comparison op → Operand.Written right rhs →
      goto.kind = .keyword .goto → name.kind = .identifier →
      Written .branch [conditional, left, operator, right, goto, name]
        (.branch op lhs rhs ⟨name.text, name.position⟩)
  | label {name : Token} : name.kind = .label → Written .label [name] (.label name.text)
  | jump {goto name : Token} : goto.kind = .keyword .goto → name.kind = .identifier →
      Written .jump [goto, name] (.jump ⟨name.text, name.position⟩)
  | halt {word : Token} : word.kind = .keyword .halt → Written .halt [word] .halt
  | call {name : Token} {operands : List Token} {args : List Operand} :
      name.kind = .identifier → List.Forall₂ Operand.Written operands args →
      Written .call (name :: operands) (.call name.text args name.position)
  | keywordCall {word name : Token} {operands : List Token} {args : List Operand} :
      word.kind = .keyword .call → name.kind = .identifier →
      List.Forall₂ Operand.Written operands args →
      Written .call (word :: name :: operands) (.call name.text args name.position)

namespace Line

/-- The lines of a token list, each with the token that ends it. Tokens after the last end of a
statement make a line of their own. -/
def cut : List Token → List (List Token)
  | [] => []
  | token :: tokens =>
      if token.kind = .endOfStatement then [token] :: cut tokens
      else
        match cut tokens with
        | [] => [[token]]
        | line :: lines => (token :: line) :: lines

/-- Whether a line only ends. -/
def isBare : List Token → Bool
  | [stop] => stop.kind == .endOfStatement
  | _ => false

def Holds (shape : Shape) (line : List Token) (statement : Statement) : Prop :=
  ∃ content stop, line = content ++ [stop] ∧ stop.kind = .endOfStatement ∧
    Statement.Written shape content statement

def Fits (line : List Token) : Prop :=
  isBare line = true ∨ ∃ shape statement, Holds shape line statement

/-- The statements of the lines that are not bare, one for each and in their order. -/
def Reads (lines : List (List Token)) (found : List Statement) : Prop :=
  List.Forall₂ (fun line statement => ∃ shape, Holds shape line statement)
    (lines.filter fun line => !isBare line) found

/-- The first line that does not fit begins at the position. -/
def FailsAt (lines : List (List Token)) (position : Position) : Prop :=
  ∃ before line after first, lines = before ++ line :: after ∧
    (∀ earlier ∈ before, Fits earlier) ∧ ¬ Fits line ∧
    line.head? = some first ∧ first.position = position

theorem isBare_iff {line : List Token} :
    isBare line = true ↔ ∃ stop, line = [stop] ∧ stop.kind = .endOfStatement := by
  constructor
  · intro bare
    rw [isBare.eq_def] at bare
    split at bare
    · next stop => exact ⟨stop, rfl, by simpa using bare⟩
    · cases bare
  · rintro ⟨stop, rfl, ends⟩
    simp [isBare, ends]

theorem flatten_cut (tokens : List Token) : (cut tokens).flatten = tokens := by
  induction tokens with
  | nil => rfl
  | cons token tokens ih =>
      rw [cut]
      split
      · rw [List.flatten_cons, ih, List.singleton_append]
      · split
        · next empty =>
            rw [empty] at ih
            simp [← ih]
        · next line lines some =>
            rw [some] at ih
            simp only [List.flatten_cons, List.cons_append] at ih ⊢
            rw [ih]

theorem mem_of_mem_cut {tokens line : List Token} (isLine : line ∈ cut tokens) {token : Token}
    (member : token ∈ line) : token ∈ tokens := by
  rw [← flatten_cut tokens]
  exact List.mem_flatten.mpr ⟨line, isLine, member⟩

theorem cut_cons (first : Token) (rest : List Token) :
    ∃ line lines, cut (first :: rest) = line :: lines ∧ line.head? = some first := by
  rw [cut]
  split
  · exact ⟨_, _, rfl, rfl⟩
  · split
    · exact ⟨_, _, rfl, rfl⟩
    · exact ⟨_, _, rfl, rfl⟩

theorem cut_append {content following : List Token} {stop : Token}
    (inLine : ∀ token ∈ content, token.kind ≠ .endOfStatement)
    (ends : stop.kind = .endOfStatement) :
    cut (content ++ stop :: following) = (content ++ [stop]) :: cut following := by
  induction content with
  | nil => rw [List.nil_append, cut, if_pos ends, List.nil_append]
  | cons first content ih =>
      rw [List.cons_append, cut, if_neg (inLine first List.mem_cons_self),
        ih fun token member => inLine token (List.mem_cons_of_mem first member)]
      rfl

theorem Reads.bare {line : List Token} {lines : List (List Token)} {found : List Statement}
    (reads : Reads lines found) (bare : isBare line = true) : Reads (line :: lines) found := by
  rw [Reads, List.filter_cons_of_neg (by simp [bare])]
  exact reads

theorem FailsAt.cons {line : List Token} {lines : List (List Token)} {position : Position}
    (fails : FailsAt lines position) (fits : Fits line) : FailsAt (line :: lines) position := by
  obtain ⟨before, misfit, after, first, rfl, earlier, rest⟩ := fails
  refine ⟨line :: before, misfit, after, first, rfl, ?_, rest⟩
  exact List.forall_mem_cons.mpr ⟨fits, earlier⟩

end Line

theorem Operand.ofToken?_eq_some_iff (token : Token) (operand : Operand) :
    Operand.ofToken? token = some operand ↔ Operand.Written token operand := by
  constructor
  · intro read
    rw [Operand.ofToken?.eq_def] at read
    split at read
    · next kind =>
        obtain ⟨value, found, rfl⟩ := Option.map_eq_some_iff.mp read
        exact .integer kind ((Numeral.readWord?_eq_some_iff _ _).mp found)
    · next kind => cases read; exact .text kind
    · next kind => cases read; exact .variable kind
    · cases read
  · intro written
    cases written with
    | integer kind decimal =>
        rw [Operand.ofToken?, kind]
        simp only [(Numeral.readWord?_eq_some_iff _ _).mpr decimal, Option.map_some]
    | text kind => rw [Operand.ofToken?, kind]
    | «variable» kind => rw [Operand.ofToken?, kind]

theorem Operand.mapM_ofToken?_eq_some_iff (tokens : List Token) (operands : List Operand) :
    tokens.mapM Operand.ofToken? = some operands ↔
      List.Forall₂ Operand.Written tokens operands := by
  induction tokens generalizing operands with
  | nil => simp [eq_comm]
  | cons token tokens ih =>
      simp only [List.mapM_cons, Option.bind_eq_bind, Option.bind_eq_some_iff,
        Operand.ofToken?_eq_some_iff, ih, Option.pure_def, Option.some.injEq,
        List.forall₂_cons_left_iff]
      constructor
      · rintro ⟨operand, first, others, rest, rfl⟩
        exact ⟨operand, others, first, rest, rfl⟩
      · rintro ⟨operand, others, first, rest, rfl⟩
        exact ⟨operand, first, others, rest, rfl⟩

theorem Operand.Written.kinds {token : Token} {operand : Operand}
    (written : Operand.Written token operand) :
    token.kind.isOperand = true ∧ token.kind ≠ .endOfStatement ∧ token.kind ≠ .assign := by
  cases written with
  | integer kind _ => simp [kind, Token.Kind.isOperand]
  | text kind => simp [kind, Token.Kind.isOperand]
  | «variable» kind => simp [kind, Token.Kind.isOperand]

namespace Statement

def shape : Statement → Shape
  | .assign .. => .assign
  | .compute .. => .compute
  | .branch .. => .branch
  | .label _ => .label
  | .jump _ => .jump
  | .halt => .halt
  | .call .. => .call

theorem Written.shape_eq {shape : Shape} {content : List Token} {statement : Statement}
    (written : Written shape content statement) : statement.shape = shape := by
  cases written <;> rfl

theorem operands_inLine {operands : List Token} {args : List Operand}
    (written : List.Forall₂ Operand.Written operands args) :
    ∀ token ∈ operands, token.kind.isOperand = true ∧ token.kind ≠ .endOfStatement := by
  induction written with
  | nil => simp
  | cons first _ ih =>
      exact List.forall_mem_cons.mpr ⟨⟨first.kinds.1, first.kinds.2.1⟩, ih⟩

/-- No token of a statement ends a line. -/
theorem Written.inLine {shape : Shape} {content : List Token} {statement : Statement}
    (written : Written shape content statement) :
    ∀ token ∈ content, token.kind ≠ .endOfStatement := by
  cases written with
  | assign target equals value => simp [target, equals, value.kinds.2.1]
  | compute target equals left operator right =>
      simp [target, equals, left.kinds.2.1, operator, right.kinds.2.1]
  | branch conditional left operator right goto name =>
      simp [conditional, left.kinds.2.1, operator, right.kinds.2.1, goto, name]
  | label name => simp [name]
  | jump goto name => simp [goto, name]
  | halt word => simp [word]
  | call name operands =>
      have others := fun token member => (operands_inLine operands token member).2
      simpa [name] using others
  | keywordCall word name operands =>
      have others := fun token member => (operands_inLine operands token member).2
      simpa [word, name] using others

theorem Written.ne_nil {shape : Shape} {content : List Token} {statement : Statement}
    (written : Written shape content statement) : content ≠ [] := by
  cases written <;> exact List.cons_ne_nil _ _

end Statement

namespace Line

theorem Holds.not_bare {shape : Shape} {line : List Token} {statement : Statement}
    (holds : Holds shape line statement) : isBare line = false := by
  obtain ⟨content, stop, rfl, _, written⟩ := holds
  cases content with
  | nil => exact absurd rfl written.ne_nil
  | cons first rest => cases rest <;> rfl

theorem Reads.cons {shape : Shape} {line : List Token} {lines : List (List Token)}
    {statement : Statement} {found : List Statement} (reads : Reads lines found)
    (holds : Holds shape line statement) : Reads (line :: lines) (statement :: found) := by
  rw [Reads, List.filter_cons_of_pos (by simp [holds.not_bare])]
  exact .cons ⟨shape, holds⟩ reads

theorem Reads.fits {lines : List (List Token)} {found : List Statement}
    (reads : Reads lines found) : ∀ line ∈ lines, Fits line := by
  intro line member
  cases bare : isBare line with
  | true => exact .inl bare
  | false =>
      have kept : line ∈ lines.filter fun line => !isBare line := by simp [member, bare]
      obtain ⟨index, inside, rfl⟩ := List.getElem_of_mem kept
      have holds := reads.get inside (reads.length_eq ▸ inside)
      exact .inr ⟨_, _, holds.choose_spec⟩

theorem FailsAt.not_fits {lines : List (List Token)} {position : Position}
    (fails : FailsAt lines position) : ¬ ∀ line ∈ lines, Fits line := by
  obtain ⟨before, line, after, first, rfl, _, misfit, _⟩ := fails
  intro fits
  exact misfit (fits line (by simp))

end Line
end LineScript
