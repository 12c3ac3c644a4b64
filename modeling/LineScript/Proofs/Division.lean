import LineScript.Proofs.LongestLexeme

/-!
The division of a source into lexemes, from the front on, up to its end or to its first fault.
Reading answers what the division says, and what stands before a fault reads as if the source ended
there.
-/

namespace LineScript
namespace Token

/-- The tokens of a source that begins at the position, and the first fault, if there is one. -/
inductive Divided : Position → List Char → List Token → Option LexicalError → Prop
  | done {position : Position} : Divided position [] [] none
  | blank {position : Position} {c : Char} {source : List Char} {tokens : List Token}
      {fault? : Option LexicalError} : Lexeme.isBlank c = true →
      Divided (position.next c) source tokens fault? → Divided position (c :: source) tokens fault?
  | lexeme {position : Position} {lexeme : Lexeme} {remaining : List Char} {tokens : List Token}
      {fault? : Option LexicalError} : Lexeme.Next (lexeme.spelling ++ remaining) (.ok lexeme) →
      Divided (position.after lexeme.spelling) remaining tokens fault? →
      Divided position (lexeme.spelling ++ remaining) (ofLexeme position lexeme :: tokens) fault?
  | fault {position : Position} {source : List Char} {fault : LexicalFault} :
      Lexeme.Next source (.error fault) → Divided position source [] (some ⟨fault, position⟩)

/-- The fault if there is one, and else the tokens. -/
def orFault (tokens : List Token) : Option LexicalError → Except LexicalError (List Token)
  | none => .ok tokens
  | some error => .error error

end Token

namespace Lexeme

/-- Scanning a blank would call it unexpected, and the rule never does. -/
theorem Next.solid {first : Char} {rest : List Char} {outcome : Except LexicalFault Lexeme}
    (next : Next (first :: rest) outcome) : isBlank first = false := by
  rw [Bool.eq_false_iff]
  intro blank
  have scanned := scan_of_next next
  obtain rfl | rfl | rfl := (isBlank_iff first).mp blank <;> cases scanned <;> cases next with
    | unexpected _ outside => exact outside (by decide)

theorem not_next_nil (outcome : Except LexicalFault Lexeme) : ¬ Next [] outcome := by
  intro next
  cases next with
  | operator isOperator longest =>
      obtain ⟨c, more, letters, _⟩ := operator_head ((operator_iff _ _).mp isOperator)
      rw [String.toList_ofList, List.prefix_nil.mp longest.isFront] at letters
      cases letters

theorem next_ok_iff (remaining : List Char) (lexeme : Lexeme) :
    Next (lexeme.spelling ++ remaining) (.ok lexeme) ↔
      lexeme.Written ∧ lexeme.Closed remaining := by
  constructor
  · intro next
    cases source : lexeme.spelling ++ remaining with
    | nil => exact absurd (source ▸ next) (not_next_nil _)
    | cons first rest =>
        rw [source] at next
        have same := scan_of_next next
        cases scanned : scan first rest with
        | error fault =>
            rw [scanned] at same
            cases same
        | ok found =>
            obtain ⟨_, left⟩ := found
            rw [scanned] at same
            cases same
            obtain ⟨covers, written, closed⟩ := written_of_scan scanned
            rw [← source] at covers
            obtain rfl := List.append_cancel_left covers
            exact ⟨written, closed⟩
  · rintro ⟨written, closed⟩
    obtain ⟨first, rest, spelled, solid⟩ := written.head
    have covers : first :: (rest ++ remaining) = lexeme.spelling ++ remaining := by
      rw [spelled, List.cons_append]
    rw [← covers, next_iff_scan solid, scan_of_written written covers closed]
    rfl

/-- The rule names one outcome. -/
theorem Next.unique {source : List Char} {outcome other : Except LexicalFault Lexeme}
    (next : Next source outcome) (next' : Next source other) : outcome = other := by
  cases source with
  | nil => exact absurd next (not_next_nil outcome)
  | cons first rest => rw [← scan_of_next next, scan_of_next next']

/-- A lexeme stays what it is when the source is cut off somewhere behind it. -/
theorem closed_of_append {lexeme : Lexeme} {front back : List Char}
    (closed : lexeme.Closed (front ++ back)) : lexeme.Closed front := by
  cases front with
  | nil => exact closed_nil lexeme
  | cons c front => exact (closed_congr rfl lexeme).mp closed

end Lexeme

namespace Token

theorem divided_none_iff (position : Position) (source : List Char) (tokens : List Token) :
    Divided position source tokens none ↔ Read position source tokens := by
  constructor
  · intro divided
    generalize noFault : none = fault? at divided
    induction divided with
    | done => exact .nil
    | blank blank _ ih => exact .blank blank (ih noFault)
    | lexeme next _ ih =>
        obtain ⟨written, closed⟩ := (Lexeme.next_ok_iff _ _).mp next
        exact .lexeme written closed (ih noFault)
    | fault _ => cases noFault
  · intro read
    induction read with
    | nil => exact .done
    | blank blank _ ih => exact .blank blank ih
    | lexeme written closed _ ih =>
        exact .lexeme ((Lexeme.next_ok_iff _ _).mpr ⟨written, closed⟩) ih

/-- Reading answers what the division says. -/
theorem Divided.readFrom_eq {position : Position} {source : List Char} {later : List Token}
    {fault? : Option LexicalError} (divided : Divided position source later fault?)
    (tokens : List Token) :
    readFrom tokens position source = orFault (tokens.reverse ++ later) fault? := by
  induction divided generalizing tokens with
  | done => rw [readFrom, List.append_nil, orFault]
  | blank blank _ ih => rw [readFrom, if_pos blank, ih]
  | @lexeme position lexeme remaining later fault? next _ ih =>
      obtain ⟨written, closed⟩ := (Lexeme.next_ok_iff _ _).mp next
      obtain ⟨first, rest, spelled, solid⟩ := written.head
      have source : lexeme.spelling ++ remaining = first :: (rest ++ remaining) := by
        rw [spelled, List.cons_append]
      rw [source, readFrom_scanned solid (Lexeme.scan_of_written written source.symm closed), ih,
        List.reverse_cons, List.append_assoc, List.singleton_append]
  | @fault position source fault next =>
      cases source with
      | nil => exact absurd next (Lexeme.not_next_nil _)
      | cons first rest =>
          have same := Lexeme.scan_of_next next
          cases scanned : Lexeme.scan first rest with
          | error found =>
              rw [scanned] at same
              cases same
              rw [readFrom_faulty next.solid scanned, orFault]
          | ok found =>
              rw [scanned] at same
              cases same

/-- Every source has a division, by the recursion of reading. -/
theorem exists_divided (position : Position) (source : List Char) :
    ∃ tokens fault?, Divided position source tokens fault? := by
  generalize nothing : ([] : List Token) = before
  clear nothing
  fun_induction readFrom before position source with
  | case1 => exact ⟨[], none, .done⟩
  | case2 before position c rest blank ih =>
      obtain ⟨tokens, fault?, divided⟩ := ih
      exact ⟨tokens, fault?, .blank blank divided⟩
  | case3 before position c rest solid fault scanned =>
      have next := Lexeme.next_of_scan (Bool.eq_false_iff.mpr solid) rest
      rw [scanned] at next
      exact ⟨[], some ⟨fault, position⟩, .fault next⟩
  | case4 before position c rest solid lexeme remaining scanned ih =>
      obtain ⟨tokens, fault?, divided⟩ := ih
      have next := Lexeme.next_of_scan (Bool.eq_false_iff.mpr solid) rest
      rw [scanned] at next
      rw [← (Lexeme.scan_covers scanned).1] at next ⊢
      exact ⟨_, fault?, .lexeme next divided⟩

theorem Divided.of_blank {position : Position} {c : Char} {source : List Char}
    {tokens : List Token} {fault? : Option LexicalError} (blank : Lexeme.isBlank c = true)
    (divided : Divided position (c :: source) tokens fault?) :
    Divided (position.next c) source tokens fault? := by
  generalize same : c :: source = whole at divided
  cases divided with
  | done => cases same
  | blank _ divided =>
      cases same
      exact divided
  | lexeme next _ | fault next =>
      rw [← same] at next
      rw [next.solid] at blank
      cases blank

theorem Divided.of_lexeme {position : Position} {lexeme : Lexeme} {remaining : List Char}
    {tokens : List Token} {fault? : Option LexicalError}
    (next : Lexeme.Next (lexeme.spelling ++ remaining) (.ok lexeme))
    (divided : Divided position (lexeme.spelling ++ remaining) tokens fault?) :
    ∃ later, tokens = ofLexeme position lexeme :: later ∧
      Divided (position.after lexeme.spelling) remaining later fault? := by
  generalize same : lexeme.spelling ++ remaining = whole at next divided
  cases divided with
  | done => exact absurd next (Lexeme.not_next_nil _)
  | blank blank _ =>
      rw [next.solid] at blank
      cases blank
  | lexeme next' divided =>
      cases next.unique next'
      obtain rfl := List.append_cancel_left same
      exact ⟨_, rfl, divided⟩
  | fault next' => cases next.unique next'

theorem Divided.unique {position : Position} {source : List Char} {tokens others : List Token}
    {fault? other? : Option LexicalError} (divided : Divided position source tokens fault?)
    (divided' : Divided position source others other?) : others = tokens ∧ other? = fault? := by
  induction divided generalizing others with
  | done =>
      generalize same : [] = whole at divided'
      cases divided' with
      | done => exact ⟨rfl, rfl⟩
      | blank _ _ => cases same
      | lexeme next _ | fault next => exact absurd (same ▸ next) (Lexeme.not_next_nil _)
  | blank blank _ ih => exact ih (divided'.of_blank blank)
  | lexeme next _ ih =>
      obtain ⟨later, rfl, onward⟩ := divided'.of_lexeme next
      obtain ⟨rfl, rfl⟩ := ih onward
      exact ⟨rfl, rfl⟩
  | fault next =>
      cases divided' with
      | done => exact absurd next (Lexeme.not_next_nil _)
      | blank blank _ =>
          rw [next.solid] at blank
          cases blank
      | lexeme next' _ => cases next.unique next'
      | fault next' =>
          cases next.unique next'
          exact ⟨rfl, rfl⟩

/-- What stands before a fault can be read alone. -/
theorem Divided.before_fault {position : Position} {source : List Char} {tokens : List Token}
    {error : LexicalError} (divided : Divided position source tokens (some error)) :
    ∃ before after, source = before ++ after ∧ error.position = position.after before ∧
      Lexeme.Next after (.error error.fault) ∧ Read position before tokens := by
  generalize faulty : some error = fault? at divided
  induction divided with
  | done => cases faulty
  | @blank position c source tokens fault? blank _ ih =>
      obtain ⟨before, after, rfl, place, next, read⟩ := ih faulty
      exact ⟨c :: before, after, rfl, place, next, .blank blank read⟩
  | @lexeme position lexeme remaining tokens fault? next _ ih =>
      obtain ⟨before, after, rfl, place, nextFault, read⟩ := ih faulty
      obtain ⟨written, closed⟩ := (Lexeme.next_ok_iff _ _).mp next
      refine ⟨lexeme.spelling ++ before, after, by rw [List.append_assoc], ?_, nextFault,
        .lexeme written (Lexeme.closed_of_append closed) read⟩
      rw [place, Position.after_append]
  | @fault position source fault next =>
      cases faulty
      exact ⟨[], source, rfl, rfl, next, .nil⟩

theorem orFault_map (change : List Token → List Token) (tokens : List Token)
    (fault? : Option LexicalError) :
    (orFault tokens fault?).map change = orFault (change tokens) fault? := by
  cases fault? <;> rfl

theorem Divided.readAll_eq {source file : String} {tokens : List Token}
    {fault? : Option LexicalError} (divided : Divided (.start file) source.toList tokens fault?) :
    readAll source file =
      orFault (close tokens ((Position.start file).after source.toList)) fault? := by
  rw [readAll, divided.readFrom_eq, List.reverse_nil, List.nil_append]
  exact orFault_map _ tokens fault?

theorem divided_of_readAll {source file : String} {error : LexicalError}
    (failed : readAll source file = .error error) :
    ∃ tokens, Divided (.start file) source.toList tokens (some error) := by
  obtain ⟨tokens, fault?, divided⟩ := exists_divided (.start file) source.toList
  rw [divided.readAll_eq] at failed
  cases fault? with
  | none => cases failed
  | some other =>
      cases failed
      exact ⟨tokens, divided⟩

/-- Every source has one division into longest lexemes, and reading answers with its tokens or, if
there is a fault, with the first one at the place where the faulty lexeme begins. The source before
that place has the tokens before the fault. -/
theorem readAll_longest_lexemes (source file : String) :
    let start := Position.start file
    ∃ tokens fault?, Divided start source.toList tokens fault? ∧
      (∀ others other?, Divided start source.toList others other? →
        others = tokens ∧ other? = fault?) ∧
      readAll source file = orFault (close tokens (start.after source.toList)) fault? ∧
      ∀ error, fault? = some error →
        ∃ before after, source.toList = before ++ after ∧
          Lexeme.Next after (.error error.fault) ∧ error.position = start.after before ∧
          error.position.offset = byteLength before ∧
          readAll (String.ofList before) file = .ok (close tokens error.position) := by
  intro start
  obtain ⟨tokens, fault?, divided⟩ := exists_divided start source.toList
  refine ⟨tokens, fault?, divided, fun _ _ => divided.unique, divided.readAll_eq, ?_⟩
  rintro error rfl
  obtain ⟨before, after, split, place, next, read⟩ := divided.before_fault
  refine ⟨before, after, split, next, place, ?_, ?_⟩
  · rw [place, Position.offset_after]
    exact Nat.zero_add _
  · rw [← String.toList_ofList (l := before), ← divided_none_iff] at read
    rw [read.readAll_eq, String.toList_ofList, place]
    rfl

end Token
end LineScript
