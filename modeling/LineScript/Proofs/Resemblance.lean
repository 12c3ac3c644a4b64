import LineScript.Proofs.Layout
import LineScript.Proofs.Recognition

/-!
Programs that say the same. Two token lists whose tokens say the same are read as statements that
say the same, or are refused at corresponding tokens.
-/

namespace LineScript

/-- Operands that say the same, at related places. -/
structure Operand.Alike (R : Position → Position → Prop) (operand other : Operand) : Prop where
  term : other.term = operand.term
  text : other.token.text = operand.token.text
  position : R operand.position other.position

structure Destination.Alike (R : Position → Position → Prop) (destination other : Destination) :
    Prop where
  label : other.label = destination.label
  position : R destination.position other.position

/-- Statements that say the same, with everything that has a place at related places. -/
inductive Statement.Alike (R : Position → Position → Prop) : Statement → Statement → Prop
  | assign {target : String} {value value' : Operand} : Operand.Alike R value value' →
      Alike R (.assign target value) (.assign target value')
  | compute {target : String} {op : Arithmetic} {lhs rhs lhs' rhs' : Operand} :
      Operand.Alike R lhs lhs' → Operand.Alike R rhs rhs' →
      Alike R (.compute target op lhs rhs) (.compute target op lhs' rhs')
  | branch {op : Comparison} {lhs rhs lhs' rhs' : Operand} {destination other : Destination} :
      Operand.Alike R lhs lhs' → Operand.Alike R rhs rhs' →
      Destination.Alike R destination other →
      Alike R (.branch op lhs rhs destination) (.branch op lhs' rhs' other)
  | label (name : String) : Alike R (.label name) (.label name)
  | jump {destination other : Destination} : Destination.Alike R destination other →
      Alike R (.jump destination) (.jump other)
  | halt : Alike R .halt .halt
  | call {name : String} {args args' : List Operand} {position position' : Position} :
      List.Forall₂ (Operand.Alike R) args args' → R position position' →
      Alike R (.call name args position) (.call name args' position')

def Program.Alike (R : Position → Position → Prop) (program other : Program) : Prop :=
  List.Forall₂ (Statement.Alike R) program.toList other.toList

variable {R : Position → Position → Prop}

theorem Token.Alike.symm {token other : Token} (alike : Token.Alike R token other) :
    Token.Alike (fun position other => R other position) other token :=
  ⟨alike.kind.symm, alike.text.symm, fun inLine => alike.position (alike.kind ▸ inLine)⟩

theorem Operand.Written.alike {token other : Token} {operand : Operand}
    (written : Operand.Written token operand) (alike : Token.Alike R token other) :
    ∃ operand', Operand.Written other operand' ∧ Operand.Alike R operand operand' := by
  have inLine := written.kinds.2.1
  cases written with
  | @integer value kind decimal =>
      rw [← alike.text] at decimal
      exact ⟨_, .integer (alike.kind.trans kind) decimal, rfl, alike.text, alike.position inLine⟩
  | text kind =>
      have term := congrArg Operand.Term.text alike.text
      exact ⟨_, .text (alike.kind.trans kind), term, alike.text, alike.position inLine⟩
  | «variable» kind =>
      have term := congrArg Operand.Term.variable alike.text
      exact ⟨_, .variable (alike.kind.trans kind), term, alike.text, alike.position inLine⟩

theorem Operand.written_alike {tokens others : List Token} {operands : List Operand}
    (written : List.Forall₂ Operand.Written tokens operands)
    (alike : List.Forall₂ (Token.Alike R) tokens others) :
    ∃ operands', List.Forall₂ Operand.Written others operands' ∧
      List.Forall₂ (Operand.Alike R) operands operands' := by
  induction written generalizing others with
  | nil =>
      cases alike
      exact ⟨[], .nil, .nil⟩
  | cons first _ ih =>
      cases alike with
      | cons same rest =>
          obtain ⟨operand', written', alike'⟩ := first.alike same
          obtain ⟨operands', written'', alike''⟩ := ih rest
          exact ⟨operand' :: operands', .cons written' written'', .cons alike' alike''⟩

theorem Destination.alike {token other : Token} (kind : token.kind = .identifier)
    (alike : Token.Alike R token other) :
    Destination.Alike R (.ofToken token) (.ofToken other) :=
  ⟨alike.text, alike.position (by simp [kind])⟩

/-- The same line written with other tokens that say the same. -/
theorem Statement.Written.alike {shape : Shape} {content other : List Token}
    {statement : Statement} (written : Written shape content statement)
    (alike : List.Forall₂ (Token.Alike R) content other) :
    ∃ statement', Written shape other statement' ∧ Statement.Alike R statement statement' := by
  cases written with
  | assign targetKind equalsKind value =>
      obtain _ | ⟨target, _ | ⟨equals, _ | ⟨source, _ | _⟩⟩⟩ := alike
      obtain ⟨value', written, alike⟩ := value.alike source
      refine ⟨_, .assign (target.kind.trans targetKind) (equals.kind.trans equalsKind) written, ?_⟩
      rw [target.text]
      exact .assign alike
  | compute targetKind equalsKind left operatorKind right =>
      obtain _ | ⟨target, _ | ⟨equals, _ | ⟨leftToken, _ | ⟨operator, _ | ⟨rightToken, _ | _⟩⟩⟩⟩⟩ :=
        alike
      obtain ⟨lhs', leftWritten, leftAlike⟩ := left.alike leftToken
      obtain ⟨rhs', rightWritten, rightAlike⟩ := right.alike rightToken
      refine ⟨_, .compute (target.kind.trans targetKind) (equals.kind.trans equalsKind) leftWritten
        (operator.kind.trans operatorKind) rightWritten, ?_⟩
      rw [target.text]
      exact .compute leftAlike rightAlike
  | branch conditionalKind left operatorKind right gotoKind nameKind =>
      obtain _ | ⟨conditional, _ | ⟨leftToken, _ | ⟨operator, _ | ⟨rightToken, _ | ⟨goto,
        _ | ⟨name, _ | _⟩⟩⟩⟩⟩⟩ := alike
      obtain ⟨lhs', leftWritten, leftAlike⟩ := left.alike leftToken
      obtain ⟨rhs', rightWritten, rightAlike⟩ := right.alike rightToken
      exact ⟨_, .branch (conditional.kind.trans conditionalKind) leftWritten
        (operator.kind.trans operatorKind) rightWritten (goto.kind.trans gotoKind)
        (name.kind.trans nameKind), .branch leftAlike rightAlike (Destination.alike nameKind name)⟩
  | label nameKind =>
      obtain _ | ⟨name, _ | _⟩ := alike
      refine ⟨_, .label (name.kind.trans nameKind), ?_⟩
      rw [name.text]
      exact .label _
  | jump gotoKind nameKind =>
      obtain _ | ⟨goto, _ | ⟨name, _ | _⟩⟩ := alike
      exact ⟨_, .jump (goto.kind.trans gotoKind) (name.kind.trans nameKind),
        .jump (Destination.alike nameKind name)⟩
  | halt wordKind =>
      obtain _ | ⟨word, _ | _⟩ := alike
      exact ⟨_, .halt (word.kind.trans wordKind), .halt⟩
  | call nameKind operands =>
      obtain _ | ⟨name, rest⟩ := alike
      obtain ⟨args', written, alike⟩ := Operand.written_alike operands rest
      refine ⟨_, .call (name.kind.trans nameKind) written, ?_⟩
      rw [name.text]
      exact .call alike (name.position (by simp [nameKind]))
  | keywordCall wordKind nameKind operands =>
      obtain _ | ⟨word, _ | ⟨name, rest⟩⟩ := alike
      obtain ⟨args', written, alike⟩ := Operand.written_alike operands rest
      refine ⟨_, .keywordCall (word.kind.trans wordKind) (name.kind.trans nameKind) written, ?_⟩
      rw [name.text]
      exact .call alike (name.position (by simp [nameKind]))

namespace Line

theorem Holds.alike {shape : Shape} {line other : List Token} {statement : Statement}
    (holds : Holds shape line statement) (alike : List.Forall₂ (Token.Alike R) line other) :
    ∃ statement', Holds shape other statement' ∧ Statement.Alike R statement statement' := by
  obtain ⟨content, stop, rfl, ends, written⟩ := holds
  have front := List.forall₂_take content.length alike
  have back := List.forall₂_drop content.length alike
  rw [List.take_left] at front
  rw [List.drop_left, List.forall₂_cons_left_iff] at back
  obtain ⟨stop', _, last, ⟨⟩, split⟩ := back
  obtain ⟨statement', written', alike'⟩ := written.alike front
  refine ⟨statement', ⟨_, stop', ?_, last.kind.trans ends, written'⟩, alike'⟩
  rw [← split, List.take_append_drop]

theorem isBare_alike {line other : List Token}
    (alike : List.Forall₂ (Token.Alike R) line other) : isBare other = isBare line := by
  obtain _ | ⟨same, _ | _⟩ := alike
  · rfl
  · rw [isBare, isBare, same.kind]
  · rfl

theorem Fits.alike {line other : List Token} (fits : Fits line)
    (alike : List.Forall₂ (Token.Alike R) line other) : Fits other := by
  obtain bare | ⟨shape, statement, holds⟩ := fits
  · exact .inl ((isBare_alike alike).trans bare)
  · obtain ⟨statement', holds', _⟩ := holds.alike alike
    exact .inr ⟨shape, statement', holds'⟩

theorem fits_alike_iff {line other : List Token}
    (alike : List.Forall₂ (Token.Alike R) line other) : Fits other ↔ Fits line := by
  have back : List.Forall₂ (Token.Alike fun position other => R other position) other line :=
    alike.flip.imp fun _ _ same => same.symm
  exact ⟨fun fits => fits.alike back, fun fits => fits.alike alike⟩

/-- Lines that say the same, apart from bare ones. -/
def Alike (R : Position → Position → Prop) (lines others : List (List Token)) : Prop :=
  List.Forall₂ (List.Forall₂ (Token.Alike R)) (lines.filter fun line => !isBare line)
    (others.filter fun line => !isBare line)

/-- Lines that say the same, the first of them whether bare or not. -/
inductive Paired (R : Position → Position → Prop) : List (List Token) → List (List Token) → Prop
  | none : Paired R [] []
  | first {line other : List Token} {lines others : List (List Token)} :
      List.Forall₂ (Token.Alike R) line other → Alike R lines others →
      Paired R (line :: lines) (other :: others)

theorem Paired.alike {lines others : List (List Token)} (paired : Paired R lines others) :
    Alike R lines others := by
  cases paired with
  | none => exact .nil
  | @first line other lines others same rest =>
      have bare := isBare_alike same
      rw [Alike]
      cases kept : isBare line with
      | true =>
          rw [List.filter_cons_of_neg (by simp [kept]),
            List.filter_cons_of_neg (by simp [bare, kept])]
          exact rest
      | false =>
          rw [List.filter_cons_of_pos (by simp [kept]),
            List.filter_cons_of_pos (by simp [bare, kept])]
          exact .cons same rest

theorem Paired.cons {token other : Token} {tokens others : List Token}
    (same : Token.Alike R token other) (inLine : token.kind ≠ .endOfStatement)
    (paired : Paired R (cut tokens) (cut others)) :
    Paired R (cut (token :: tokens)) (cut (other :: others)) := by
  rw [cut, cut, if_neg inLine, same.kind, if_neg inLine]
  generalize cut tokens = lines, cut others = lines' at paired
  cases paired with
  | none => exact .first (.cons same .nil) .nil
  | first first rest => exact .first (.cons same first) rest

/-- By the alignment: a line that has begun is paired with the same line of the other list, and
before a line begins there may be bare ones. -/
theorem cut_aligned {fresh : Bool} {tokens others : List Token}
    (aligned : Token.Aligned (Token.Alike R) fresh tokens others) :
    Alike R (cut tokens) (cut others) ∧ (fresh = false → Paired R (cut tokens) (cut others)) := by
  induction aligned with
  | nil => exact ⟨.nil, fun _ => .none⟩
  | @bare stop tokens others ends _ ih =>
      refine ⟨?_, nofun⟩
      rw [cut, if_pos ends, Alike, List.filter_cons_of_neg (by simp [isBare, ends])]
      exact ih.1
  | @cons fresh token other tokens others same _ ih =>
      have paired : Paired R (cut (token :: tokens)) (cut (other :: others)) := by
        by_cases ends : token.kind = .endOfStatement
        · rw [cut, cut, if_pos ends, if_pos (same.kind.trans ends)]
          exact .first (.cons same .nil) ih.1
        · exact .cons same ends (ih.2 (by simp [ends]))
      exact ⟨paired.alike, fun _ => paired⟩

theorem Reads.alike {lines others : List (List Token)} {found found' : List Statement}
    (alike : Alike R lines others) (reads : Reads lines found) (reads' : Reads others found') :
    List.Forall₂ (Statement.Alike R) found found' := by
  rw [Alike] at alike
  rw [Reads] at reads reads'
  generalize (lines.filter fun line => !isBare line) = kept,
    (others.filter fun line => !isBare line) = kept' at alike reads reads'
  induction alike generalizing found found' with
  | nil =>
      cases reads
      cases reads'
      exact .nil
  | cons same _ ih =>
      obtain _ | ⟨⟨shape, holds⟩, rest⟩ := reads
      obtain _ | ⟨⟨shape', holds'⟩, rest'⟩ := reads'
      obtain ⟨statement, read, statementAlike⟩ := holds.alike same
      obtain ⟨_, rfl⟩ := read.unique holds'
      exact .cons statementAlike (ih rest rest')

theorem fits_all_iff (lines : List (List Token)) :
    (∀ line ∈ lines, Fits line) ↔ ∀ line ∈ lines.filter fun line => !isBare line, Fits line := by
  constructor
  · exact fun fits line member => fits line (List.mem_of_mem_filter member)
  · intro fits line member
    cases bare : isBare line with
    | true => exact .inl bare
    | false => exact fits line (List.mem_filter.mpr ⟨member, by simp [bare]⟩)

theorem fits_all_alike {lines others : List (List Token)} (alike : Alike R lines others) :
    (∀ line ∈ others, Fits line) ↔ ∀ line ∈ lines, Fits line := by
  rw [fits_all_iff others, fits_all_iff lines]
  rw [Alike] at alike
  generalize (lines.filter fun line => !isBare line) = kept,
    (others.filter fun line => !isBare line) = kept' at alike ⊢
  induction alike with
  | nil => simp
  | cons same _ ih => rw [List.forall_mem_cons, List.forall_mem_cons, fits_alike_iff same, ih]

/-- Along two lists whose elements correspond, the first that do not fit correspond. -/
theorem alike_of_first_misfits {before after before' after' : List (List Token)}
    {line line' : List Token}
    (alike : List.Forall₂ (List.Forall₂ (Token.Alike R)) (before ++ line :: after)
      (before' ++ line' :: after'))
    (earlier : ∀ line ∈ before, Fits line) (misfit : ¬ Fits line)
    (earlier' : ∀ line ∈ before', Fits line) (misfit' : ¬ Fits line') :
    List.Forall₂ (Token.Alike R) line line' := by
  induction before generalizing before' with
  | nil =>
      cases before' with
      | nil =>
          obtain _ | ⟨same, _⟩ := alike
          exact same
      | cons first _ =>
          obtain _ | ⟨same, _⟩ := alike
          have fits := earlier' first List.mem_cons_self
          exact absurd ((fits_alike_iff same).mp fits) misfit
  | cons first before ih =>
      cases before' with
      | nil =>
          obtain _ | ⟨same, _⟩ := alike
          have fits := earlier first List.mem_cons_self
          exact absurd (fits.alike same) misfit'
      | cons first' before' =>
          obtain _ | ⟨_, rest⟩ := alike
          exact ih rest (List.forall_mem_cons.mp earlier).2 (List.forall_mem_cons.mp earlier').2

/-- The first line that does not fit is still the first when bare lines are left out. -/
theorem FailsAt.filter {lines : List (List Token)} {position : Position}
    (fails : FailsAt lines position) :
    ∃ before line after first, line ∈ lines ∧
      lines.filter (fun line => !isBare line) = before ++ line :: after ∧
      (∀ earlier ∈ before, Fits earlier) ∧ ¬ Fits line ∧ line.head? = some first ∧
      first.position = position := by
  obtain ⟨before, line, after, first, rfl, earlier, misfit, head, place⟩ := fails
  have kept : isBare line = false := by
    rw [Bool.eq_false_iff]
    exact fun bare => misfit (.inl bare)
  refine ⟨before.filter fun line => !isBare line, line, after.filter fun line => !isBare line,
    first, by simp, ?_, ?_, misfit, head, place⟩
  · rw [List.filter_append, List.filter_cons_of_pos (by simp [kept])]
  · exact fun line member => earlier line (List.mem_of_mem_filter member)

/-- A line that begins with the end of a statement is bare. -/
theorem isBare_of_mem_cut {tokens line : List Token} (member : line ∈ cut tokens) {first : Token}
    (head : line.head? = some first) (ends : first.kind = .endOfStatement) :
    isBare line = true := by
  induction tokens generalizing line with
  | nil => cases member
  | cons token tokens ih =>
      rw [cut] at member
      split at member
      · next stops =>
          obtain rfl | later := List.mem_cons.mp member
          · exact isBare_iff.mpr ⟨token, rfl, stops⟩
          · exact ih later head
      · next inLine =>
          have elsewhere {others : List Token} : line ≠ token :: others := by
            rintro rfl
            cases head
            exact inLine ends
          split at member
          · exact absurd (List.mem_singleton.mp member) elsewhere
          · next split =>
              obtain here | later := List.mem_cons.mp member
              · exact absurd here elsewhere
              · exact ih (split ▸ List.mem_cons_of_mem _ later) head

/-- The first lines that do not fit correspond to each other. -/
theorem FailsAt.alike {tokens others : List Token} {position position' : Position}
    (alike : Alike R (cut tokens) (cut others)) (fails : FailsAt (cut tokens) position)
    (fails' : FailsAt (cut others) position') : R position position' := by
  obtain ⟨before, line, after, first, member, split, earlier, misfit, head, rfl⟩ := fails.filter
  obtain ⟨before', line', after', first', _, split', earlier', misfit', head', rfl⟩ := fails'.filter
  rw [Alike, split, split'] at alike
  have same := alike_of_first_misfits alike earlier misfit earlier' misfit'
  have inLine : first.kind ≠ .endOfStatement :=
    fun ends => misfit (.inl (isBare_of_mem_cut member head ends))
  cases same with
  | nil => cases head
  | cons heads _ =>
      cases head
      cases head'
      exact heads.position inLine

end Line

theorem Program.ofTokens_alike {tokens others : List Token}
    (aligned : Token.Aligned (Token.Alike R) true tokens others) :
    (∃ program other, ofTokens tokens = .ok program ∧ ofTokens others = .ok other ∧
      Program.Alike R program other) ∨
    (∃ position position', ofTokens tokens = .error ⟨position⟩ ∧
      ofTokens others = .error ⟨position'⟩ ∧ R position position') := by
  have alike := (Line.cut_aligned aligned).1
  obtain ⟨program, reads, read⟩ | ⟨position, fails, read⟩ := ofTokens_lines tokens
  · obtain ⟨other, reads', read'⟩ | ⟨position', fails', read'⟩ := ofTokens_lines others
    · exact .inl ⟨program, other, read, read', reads.alike alike reads'⟩
    · exact absurd ((Line.fits_all_alike alike).mpr reads.fits) fails'.not_fits
  · obtain ⟨other, reads', read'⟩ | ⟨position', fails', read'⟩ := ofTokens_lines others
    · exact absurd ((Line.fits_all_alike alike).mp reads'.fits) fails.not_fits
    · exact .inr ⟨position, position', read, read', fails.alike alike fails'⟩

end LineScript
