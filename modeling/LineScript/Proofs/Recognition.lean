import LineScript.Proofs.Grammar

/-!
Reading recognises the grammar: what it finds at the front is a statement written by the rest of
the line, and a written statement is found whatever follows its line. The patterns look at all
tokens that are left, so the two lemmas on `front?` say that a match never reaches past the end of
its line and that no later form takes a line from an earlier one.
-/

namespace LineScript

theorem Token.exists_of_kind {token : Token} {kind : Kind} (same : token.kind = kind) :
    ∃ text length position, token = ⟨kind, text, length, position⟩ :=
  ⟨token.text, token.length, token.position, by rw [← same]⟩

namespace Statement

theorem namedCall?_of_written {name stop : Token} {operands : List Token} {args : List Operand}
    (named : name.kind = .identifier) (written : List.Forall₂ Operand.Written operands args)
    (ends : stop.kind = .endOfStatement) (following : List Token) :
    namedCall? (name :: (operands ++ stop :: following)) =
      some (.call name.text args name.position, following) := by
  have operand : ∀ token ∈ operands, token.kind.isOperand = true :=
    fun token member => (operands_inLine written token member).1
  have noOperand : stop.kind.isOperand = false := by simp [ends, Token.Kind.isOperand]
  have taken : (operands ++ stop :: following).takeWhile (·.kind.isOperand) = operands := by
    rw [List.takeWhile_append_of_pos operand]
    simp [noOperand]
  have left : (operands ++ stop :: following).dropWhile (·.kind.isOperand) =
      stop :: following := by
    rw [List.dropWhile_append_of_pos operand]
    simp [noOperand]
  rw [namedCall?, if_pos named, taken, left,
    (Operand.mapM_ofToken?_eq_some_iff _ _).mpr written]
  simp [ends]

theorem front?_of_find {form : Form} {tokens : List Token} {statement : Statement}
    (found : forms.find? (fun form => form.pattern.fits tokens) = some form)
    (read : form.read tokens = some statement) :
    front? tokens = some (statement, tokens.drop form.pattern.length) := by
  rw [front?, found]
  change (form.read tokens).map _ = _
  rw [read]
  rfl

/-- Once the kinds of the fixed tokens are in place, the patterns before the right one fail by
computation. Only the operands, which have one of three kinds, need a word. -/
theorem front?_of_written {shape : Shape} {content : List Token} {stop : Token}
    {statement : Statement} (written : Written shape content statement)
    (ends : stop.kind = .endOfStatement) (following : List Token) :
    front? (content ++ stop :: following) = some (statement, following) := by
  cases written with
  | @assign target equals source value targetKind equalsKind operand =>
      obtain ⟨_, _, _, rfl⟩ := Token.exists_of_kind targetKind
      obtain ⟨_, _, _, rfl⟩ := Token.exists_of_kind equalsKind
      obtain ⟨_, _, _, rfl⟩ := Token.exists_of_kind ends
      have read := (Operand.ofToken?_eq_some_iff source value).mpr operand
      refine front?_of_find (List.find?_cons_of_pos ?_) (congrArg (Option.map _) read)
      change (source.kind.isOperand && true) = true
      rw [operand.kinds.1]
      rfl
  | @compute target equals left operator right op lhs rhs targetKind equalsKind leftOperand
      operatorKind rightOperand =>
      obtain ⟨_, _, _, rfl⟩ := Token.exists_of_kind targetKind
      obtain ⟨_, _, _, rfl⟩ := Token.exists_of_kind equalsKind
      obtain ⟨_, _, _, rfl⟩ := Token.exists_of_kind operatorKind
      obtain ⟨_, _, _, rfl⟩ := Token.exists_of_kind ends
      have readLeft := (Operand.ofToken?_eq_some_iff left lhs).mpr leftOperand
      have readRight := (Operand.ofToken?_eq_some_iff right rhs).mpr rightOperand
      refine front?_of_find ((List.find?_cons_of_neg ?_).trans (List.find?_cons_of_pos ?_)) ?_
      · change ¬ (left.kind.isOperand && false) = true
        rw [Bool.and_false]
        exact Bool.false_ne_true
      · change (left.kind.isOperand && (right.kind.isOperand && true)) = true
        rw [leftOperand.kinds.1, rightOperand.kinds.1]
        rfl
      · change ((Operand.ofToken? left).bind fun lhs => (Operand.ofToken? right).bind _) = _
        rw [readLeft, Option.bind_some, readRight]
        rfl
  | @branch conditional left operator right goto name op lhs rhs conditionalKind leftOperand
      operatorKind rightOperand gotoKind nameKind =>
      obtain ⟨_, _, _, rfl⟩ := Token.exists_of_kind conditionalKind
      obtain ⟨_, _, _, rfl⟩ := Token.exists_of_kind operatorKind
      obtain ⟨_, _, _, rfl⟩ := Token.exists_of_kind gotoKind
      obtain ⟨_, _, _, rfl⟩ := Token.exists_of_kind nameKind
      obtain ⟨_, _, _, rfl⟩ := Token.exists_of_kind ends
      have readLeft := (Operand.ofToken?_eq_some_iff left lhs).mpr leftOperand
      have readRight := (Operand.ofToken?_eq_some_iff right rhs).mpr rightOperand
      refine front?_of_find ((List.find?_cons_of_neg Bool.false_ne_true).trans
        ((List.find?_cons_of_neg Bool.false_ne_true).trans (List.find?_cons_of_pos ?_))) ?_
      · change (left.kind.isOperand && (right.kind.isOperand && true)) = true
        rw [leftOperand.kinds.1, rightOperand.kinds.1]
        rfl
      · change ((Operand.ofToken? left).bind fun lhs => (Operand.ofToken? right).bind _) = _
        rw [readLeft, Option.bind_some, readRight]
        rfl
  | label nameKind =>
      obtain ⟨_, _, _, rfl⟩ := Token.exists_of_kind nameKind
      obtain ⟨_, _, _, rfl⟩ := Token.exists_of_kind ends
      rfl
  | jump gotoKind nameKind =>
      obtain ⟨_, _, _, rfl⟩ := Token.exists_of_kind gotoKind
      obtain ⟨_, _, _, rfl⟩ := Token.exists_of_kind nameKind
      obtain ⟨_, _, _, rfl⟩ := Token.exists_of_kind ends
      rfl
  | halt wordKind =>
      obtain ⟨_, _, _, rfl⟩ := Token.exists_of_kind wordKind
      obtain ⟨_, _, _, rfl⟩ := Token.exists_of_kind ends
      rfl
  | call nameKind operands =>
      have found := namedCall?_of_written nameKind operands ends following
      obtain ⟨_, _, _, rfl⟩ := Token.exists_of_kind nameKind
      cases operands with
      | nil =>
          obtain ⟨_, _, _, rfl⟩ := Token.exists_of_kind ends
          exact found
      | cons first others =>
          cases first with
          | integer kind _ | text kind | «variable» kind =>
              obtain ⟨_, _, _, rfl⟩ := Token.exists_of_kind kind
              exact found
  | keywordCall wordKind nameKind operands =>
      have found := namedCall?_of_written nameKind operands ends following
      obtain ⟨_, _, _, rfl⟩ := Token.exists_of_kind wordKind
      exact found

theorem written_of_namedCall? {tokens following : List Token} {statement : Statement}
    (h : namedCall? tokens = some (statement, following)) :
    ∃ name operands args stop, tokens = name :: (operands ++ stop :: following) ∧
      name.kind = .identifier ∧ List.Forall₂ Operand.Written operands args ∧
      stop.kind = .endOfStatement ∧ statement = .call name.text args name.position := by
  cases tokens with
  | nil => cases h
  | cons name rest =>
      simp only [namedCall?, Option.ite_none_right_eq_some, Option.bind_eq_bind,
        Option.bind_eq_some_iff] at h
      obtain ⟨named, args, read, h⟩ := h
      split at h
      · cases h
      · next stop _ left =>
          simp only [Option.ite_none_right_eq_some, Option.some.injEq, Prod.mk.injEq] at h
          obtain ⟨ends, rfl, rfl⟩ := h
          refine ⟨name, rest.takeWhile (·.kind.isOperand), args, stop, ?_, named,
            (Operand.mapM_ofToken?_eq_some_iff _ _).mp read, ends, rfl⟩
          rw [← left, List.takeWhile_append_dropWhile]

theorem written_of_call? {tokens following : List Token} {statement : Statement}
    (h : call? tokens = some (statement, following)) :
    ∃ content stop, tokens = content ++ stop :: following ∧ stop.kind = .endOfStatement ∧
      Written .call content statement := by
  cases tokens with
  | nil => cases h
  | cons first rest =>
      rw [call?] at h
      split at h
      · next word =>
          obtain ⟨name, operands, args, stop, rfl, named, written, ends, rfl⟩ :=
            written_of_namedCall? h
          exact ⟨first :: name :: operands, stop, rfl, ends, .keywordCall word named written⟩
      · obtain ⟨name, operands, args, stop, same, named, written, ends, rfl⟩ :=
          written_of_namedCall? h
        cases same
        exact ⟨first :: operands, stop, rfl, ends, .call named written⟩

theorem written_of_form {form : Form} (member : form ∈ forms) {tokens : List Token}
    {statement : Statement} (fits : form.pattern.fits tokens = true)
    (read : form.read tokens = some statement) :
    ∃ shape content stop following, tokens = content ++ stop :: following ∧
      tokens.drop form.pattern.length = following ∧ stop.kind = .endOfStatement ∧
      Written shape content statement := by
  simp only [forms, List.mem_cons, List.not_mem_nil, or_false] at member
  obtain rfl | rfl | rfl | rfl | rfl | rfl := member
  · simp only [Pattern.assign, Pattern.fits_cons_iff, beq_iff_eq] at fits
    obtain ⟨target, _, rfl, targetKind, equals, _, rfl, equalsKind, source, _, rfl, _, stop,
      following, rfl, ends, _⟩ := fits
    obtain ⟨value, found, rfl⟩ := Option.map_eq_some_iff.mp read
    exact ⟨.assign, [target, equals, source], stop, following, rfl, rfl, ends,
      .assign targetKind equalsKind ((Operand.ofToken?_eq_some_iff _ _).mp found)⟩
  · simp only [Pattern.compute, Pattern.fits_cons_iff, beq_iff_eq] at fits
    obtain ⟨target, _, rfl, targetKind, equals, _, rfl, equalsKind, left, _, rfl, _, operator, _,
      rfl, _, right, _, rfl, _, stop, following, rfl, ends, _⟩ := fits
    simp only [readCompute, Option.bind_eq_bind, Option.bind_eq_some_iff,
      Operand.ofToken?_eq_some_iff, Option.some.injEq] at read
    obtain ⟨op, operation, lhs, leftWritten, rhs, rightWritten, rfl⟩ := read
    exact ⟨.compute, [target, equals, left, operator, right], stop, following, rfl, rfl, ends,
      .compute targetKind equalsKind leftWritten (Token.Kind.arithmetic?_eq_some operation)
        rightWritten⟩
  · simp only [Pattern.branch, Pattern.fits_cons_iff, beq_iff_eq] at fits
    obtain ⟨conditional, _, rfl, conditionalKind, left, _, rfl, _, operator, _, rfl, _, right, _,
      rfl, _, goto, _, rfl, gotoKind, name, _, rfl, nameKind, stop, following, rfl, ends, _⟩ :=
      fits
    simp only [readBranch, Option.bind_eq_bind, Option.bind_eq_some_iff,
      Operand.ofToken?_eq_some_iff, Option.some.injEq] at read
    obtain ⟨op, operation, lhs, leftWritten, rhs, rightWritten, rfl⟩ := read
    exact ⟨.branch, [conditional, left, operator, right, goto, name], stop, following, rfl, rfl,
      ends, .branch conditionalKind leftWritten (Token.Kind.comparison?_eq_some operation)
        rightWritten gotoKind nameKind⟩
  · simp only [Pattern.label, Pattern.fits_cons_iff, beq_iff_eq] at fits
    obtain ⟨name, _, rfl, nameKind, stop, following, rfl, ends, _⟩ := fits
    cases read
    exact ⟨.label, [name], stop, following, rfl, rfl, ends, .label nameKind⟩
  · simp only [Pattern.jump, Pattern.fits_cons_iff, beq_iff_eq] at fits
    obtain ⟨goto, _, rfl, gotoKind, name, _, rfl, nameKind, stop, following, rfl, ends, _⟩ := fits
    cases read
    exact ⟨.jump, [goto, name], stop, following, rfl, rfl, ends, .jump gotoKind nameKind⟩
  · simp only [Pattern.halt, Pattern.fits_cons_iff, beq_iff_eq] at fits
    obtain ⟨word, _, rfl, wordKind, stop, following, rfl, ends, _⟩ := fits
    cases read
    exact ⟨.halt, [word], stop, following, rfl, rfl, ends, .halt wordKind⟩

/-- What stands at the front is written by the tokens up to the end of its line. -/
theorem written_of_front? {tokens following : List Token} {statement : Statement}
    (h : front? tokens = some (statement, following)) :
    ∃ shape content stop, tokens = content ++ stop :: following ∧
      stop.kind = .endOfStatement ∧ Written shape content statement := by
  rw [front?] at h
  split at h
  · next form found =>
      simp only [Option.map_eq_some_iff, Prod.mk.injEq] at h
      obtain ⟨_, read, rfl, after⟩ := h
      have fits := List.find?_some found
      obtain ⟨shape, content, stop, following, split, dropped, ends, written⟩ :=
        written_of_form (List.mem_of_find?_eq_some found) fits read
      subst after dropped
      exact ⟨shape, content, stop, split, ends, written⟩
  · obtain ⟨content, stop, split, ends, written⟩ := written_of_call? h
    exact ⟨.call, content, stop, split, ends, written⟩

/-- Both readings of a line are what stands at the front once the line is closed. -/
theorem Written.unique {shape shape' : Shape} {content : List Token}
    {statement statement' : Statement} (written : Written shape content statement)
    (written' : Written shape' content statement') : shape = shape' ∧ statement = statement' := by
  let stop : Token := ⟨.endOfStatement, "", 0, .start ""⟩
  have ends : stop.kind = .endOfStatement := rfl
  have found := front?_of_written written ends []
  have found' := front?_of_written written' ends []
  have same : statement = statement' := by
    rw [found, Option.some.injEq, Prod.mk.injEq] at found'
    exact found'.1
  refine ⟨?_, same⟩
  rw [← written.shape_eq, ← written'.shape_eq, same]

end Statement

namespace Line

theorem Holds.unique {shape shape' : Shape} {line : List Token} {statement statement' : Statement}
    (holds : Holds shape line statement) (holds' : Holds shape' line statement') :
    shape = shape' ∧ statement = statement' := by
  obtain ⟨content, stop, rfl, _, written⟩ := holds
  obtain ⟨content', stop', same, _, written'⟩ := holds'
  obtain ⟨rfl, _⟩ := List.append_inj' same rfl
  exact written.unique written'

theorem Reads.unique {lines : List (List Token)} {found found' : List Statement}
    (reads : Reads lines found) (reads' : Reads lines found') : found = found' := by
  refine List.right_unique_forall₂' ?_ reads reads'
  rintro line statement statement' ⟨shape, holds⟩ ⟨shape', holds'⟩
  exact (holds.unique holds').2

theorem fits_iff_unique_shape (line : List Token) :
    Fits line ↔ isBare line = true ∨ ∃! shape, ∃ statement, Holds shape line statement := by
  refine or_congr_right ⟨?_, fun ⟨shape, holds, _⟩ => ⟨shape, holds⟩⟩
  rintro ⟨shape, statement, holds⟩
  refine ⟨shape, ⟨statement, holds⟩, ?_⟩
  rintro other ⟨statement', holds'⟩
  exact (holds'.unique holds).1

end Line

namespace Program
open Line

theorem front?_of_fits {first : Token} {rest line : List Token} {lines : List (List Token)}
    (lineEnd : first.kind ≠ .endOfStatement) (split : cut (first :: rest) = line :: lines)
    (fits : Fits line) : (Statement.front? (first :: rest)).isSome := by
  have tokens : line ++ lines.flatten = first :: rest := by
    rw [← flatten_cut (first :: rest), split, List.flatten_cons]
  obtain bare | ⟨shape, statement, content, stop, rfl, ends, written⟩ := fits
  · obtain ⟨stop, rfl, ends⟩ := isBare_iff.mp bare
    cases tokens
    exact absurd ends lineEnd
  · rw [List.append_assoc, List.singleton_append] at tokens
    rw [← tokens, Statement.front?_of_written written ends]
    rfl

/-- One pass over the lines, by the recursion of reading: each step takes one line. -/
theorem readFrom_lines (statements : List Statement) (tokens : List Token) :
    (∃ found, Reads (cut tokens) found ∧
      readFrom statements tokens = .ok (statements.reverse ++ found)) ∨
    (∃ position, FailsAt (cut tokens) position ∧
      readFrom statements tokens = .error ⟨position⟩) := by
  fun_induction readFrom statements tokens with
  | case1 statements => exact .inl ⟨[], .nil, by simp⟩
  | case2 statements first rest statement following found ih =>
      obtain ⟨shape, content, stop, split, ends, written⟩ := Statement.written_of_front? found
      have holds : Holds shape (content ++ [stop]) statement := ⟨content, stop, rfl, ends, written⟩
      rw [split, cut_append written.inLine ends]
      obtain ⟨others, reads, read⟩ | ⟨position, fails, read⟩ := ih
      · refine .inl ⟨statement :: others, reads.cons holds, ?_⟩
        rw [read, List.reverse_cons, List.append_assoc, List.singleton_append]
      · exact .inr ⟨position, fails.cons (.inr ⟨shape, statement, holds⟩), read⟩
  | case3 statements first rest _ lineEnd ih =>
      have bare : isBare [first] = true := isBare_iff.mpr ⟨first, rfl, lineEnd⟩
      rw [cut, if_pos lineEnd]
      obtain ⟨others, reads, read⟩ | ⟨position, fails, read⟩ := ih
      · exact .inl ⟨others, reads.bare bare, read⟩
      · exact .inr ⟨position, fails.cons (.inl bare), read⟩
  | case4 statements first rest missing lineEnd =>
      obtain ⟨line, lines, split, head⟩ := cut_cons first rest
      refine .inr ⟨first.position, ⟨[], line, lines, first, split, by simp, ?_, head, rfl⟩, rfl⟩
      intro fits
      have found := front?_of_fits lineEnd split fits
      rw [missing] at found
      cases found

theorem ofTokens_lines (tokens : List Token) :
    (∃ program, Reads (cut tokens) program.toList ∧ ofTokens tokens = .ok program) ∨
    (∃ position, FailsAt (cut tokens) position ∧ ofTokens tokens = .error ⟨position⟩) := by
  obtain ⟨found, reads, read⟩ | ⟨position, fails, read⟩ := readFrom_lines [] tokens
  · exact .inl ⟨found.toArray, reads, by simp [ofTokens, read, Except.map]⟩
  · exact .inr ⟨position, fails, by simp [ofTokens, read, Except.map]⟩

theorem ofTokens_of_reads {tokens : List Token} {found : List Statement}
    (reads : Reads (cut tokens) found) : ofTokens tokens = .ok found.toArray := by
  obtain ⟨program, reads', read⟩ | ⟨position, fails, _⟩ := ofTokens_lines tokens
  · rw [read, reads.unique reads']
  · exact absurd reads.fits fails.not_fits

/-- Reading succeeds exactly when every line that is not bare has one of the shapes, which exclude
each other. It finds the statements that the lines write, one for each in their order, and otherwise
it fails at the first token of the first line that does not fit. -/
theorem ofTokens_recognizes_lines (tokens : List Token) :
    ((∃ program, ofTokens tokens = .ok program) ↔
      ∀ line ∈ cut tokens, isBare line = true ∨
        ∃! shape, ∃ statement, Holds shape line statement) ∧
    (∀ program, ofTokens tokens = .ok program ↔ Reads (cut tokens) program.toList) ∧
    (∀ error, ofTokens tokens = .error error → FailsAt (cut tokens) error.position) ∧
    (∀ line shape shape' statement statement', Holds shape line statement →
      Holds shape' line statement' → shape = shape' ∧ statement = statement') := by
  have exclusive (line : List Token) (shape shape' : Shape) (statement statement' : Statement)
      (holds : Holds shape line statement) (holds' : Holds shape' line statement') :
      shape = shape' ∧ statement = statement' := holds.unique holds'
  simp only [← fits_iff_unique_shape]
  obtain ⟨program, reads, read⟩ | ⟨position, fails, read⟩ := ofTokens_lines tokens
  · refine ⟨iff_of_true ⟨program, read⟩ reads.fits, ?_, ?_, exclusive⟩
    · intro other
      rw [read, Except.ok.injEq]
      constructor
      · rintro rfl
        exact reads
      · intro reads'
        exact Array.toList_inj.mp (reads.unique reads')
    · intro error failed
      rw [read] at failed
      cases failed
  · refine ⟨iff_of_false ?_ fails.not_fits, ?_, ?_, exclusive⟩
    · rintro ⟨program, succeeded⟩
      rw [read] at succeeded
      cases succeeded
    · intro program
      rw [read]
      exact iff_of_false (by simp) fun reads => fails.not_fits reads.fits
    · intro error failed
      rw [read] at failed
      cases failed
      exact fails

end Program
end LineScript
