import LineScript.Proofs.LockStep
import LineScript.World

/-!
Layout independence. From the text of a source to the end of its run, blanks between lexemes and
blank lines change nothing but the places of errors, and carriage returns at the ends of lines
change nothing of an error that is shown.
-/

namespace LineScript

/-- Diagnostics that say the same, at related places. -/
structure Diagnostic.Alike (R : Position → Position → Prop) (diagnostic other : Diagnostic) :
    Prop where
  phase : other.phase = diagnostic.phase
  message : other.message = diagnostic.message
  hint : other.hint? = diagnostic.hint?
  position : R diagnostic.position other.position

/-- Results that correspond: both fine, or both errors that are related. -/
inductive Diagnosed (S : Diagnostic → Diagnostic → Prop) :
    Except Diagnostic Unit → Except Diagnostic Unit → Prop
  | ok : Diagnosed S (.ok ()) (.ok ())
  | error {diagnostic other : Diagnostic} : S diagnostic other →
      Diagnosed S (.error diagnostic) (.error other)

theorem Diagnosed.imp {S T : Diagnostic → Diagnostic → Prop}
    (implies : ∀ diagnostic other, S diagnostic other → T diagnostic other)
    {result result' : Except Diagnostic Unit} (diagnosed : Diagnosed S result result') :
    Diagnosed T result result' := by
  cases diagnosed with
  | ok => exact .ok
  | error related => exact .error (implies _ _ related)

/-- The places of corresponding tokens, the ends of statements left out, or the place that stands
for an empty program. -/
def Counterparts (tokens others : List Token) (position position' : Position) : Prop :=
  (∃ pair ∈ (tokens.filter Token.isInLine).zip (others.filter Token.isInLine),
    pair.1.position = position ∧ pair.2.position = position') ∨
  (position = .start "<program>" ∧ position' = .start "<program>")

variable {R : Position → Position → Prop}

theorem Outcome.diagnose_alike {outcome outcome' : Outcome}
    (matched : Matched R Eq outcome outcome') :
    Diagnosed (Diagnostic.Alike R) outcome.diagnose outcome'.diagnose := by
  cases matched with
  | ok _ => exact .ok
  | error fault place => exact .error ⟨rfl, rfl, rfl, place⟩

theorem Execution.result_alike {execution other : Execution} (alike : execution.Alike R other) :
    Option.Rel (Diagnosed (Diagnostic.Alike R)) (execution.outcome?.map Outcome.diagnose)
      (other.outcome?.map Outcome.diagnose) := by
  have stages := alike.stage
  rw [outcome?, outcome?]
  generalize execution.stage = stage, other.stage = stage' at stages
  cases stages with
  | running _ | closing _ => exact .none
  | finished outcomes => exact .some (Outcome.diagnose_alike outcomes)

section RunSource

variable {source file : String} {tokens : List Token} {σ : Type} [Host σ]

theorem runSource_of_program (read : Token.readAll source file = .ok tokens) {program : Program}
    (parsed : Program.ofTokens tokens = .ok program) (fuel : Nat) (options : RunOptions)
    (host : σ) :
    runSource fuel source file options host =
      let launch := Launch.ofProgram program file options
      let done := launch.execution.advance launch.plan fuel host
      (done.1.outcome?.map Outcome.diagnose, launch.notices, done.2) := by
  simp only [runSource, Launch.ofSource, Program.ofSource, read, parsed, Except.mapError,
    Except.map]

theorem runSource_of_refused (read : Token.readAll source file = .ok tokens)
    {error : InvalidStatement} (failed : Program.ofTokens tokens = .error error) (fuel : Nat)
    (options : RunOptions) (host : σ) :
    runSource fuel source file options host =
      (some (.error (.ofInvalidStatement error)), [], host) := by
  simp only [runSource, Launch.ofSource, Program.ofSource, read, failed, Except.mapError,
    Except.map]

theorem runSource_of_faulty {error : LexicalError}
    (failed : Token.readAll source file = .error error) (fuel : Nat) (options : RunOptions)
    (host : σ) :
    runSource fuel source file options host =
      (some (.error (.ofLexicalError error)), [], host) := by
  simp only [runSource, Launch.ofSource, Program.ofSource, failed, Except.map]

/-- Sources whose tokens say the same have runs that correspond. -/
theorem runSource_alike {other : String} {others : List Token}
    (fallback : R (.start "<program>") (.start "<program>"))
    (read : Token.readAll source file = .ok tokens)
    (read' : Token.readAll other file = .ok others)
    (aligned : Token.Aligned (Token.Alike R) true tokens others) (fuel : Nat)
    (options : RunOptions) (host : σ) :
    Option.Rel (Diagnosed (Diagnostic.Alike R)) (runSource fuel source file options host).1
        (runSource fuel other file options host).1 ∧
      (runSource fuel other file options host).2 = (runSource fuel source file options host).2 := by
  obtain ⟨program, program', parsed, parsed', alike⟩ |
      ⟨position, position', failed, failed', place⟩ :=
    Program.ofTokens_alike aligned
  · rw [runSource_of_program read parsed, runSource_of_program read' parsed']
    have plans := Plan.alike_new alike fallback .standard
    have started : (Execution.start (.new options.memory)).Alike R (.start (.new options.memory)) :=
      ⟨.running 0, rfl⟩
    obtain ⟨ended, same⟩ := Execution.advance_lockStep plans (Plan.callsStandard_new program)
      (Plan.callsStandard_new program') fuel started host
    have notices : (Launch.ofProgram program' file options).notices =
        (Launch.ofProgram program file options).notices := by
      have size : program'.size = program.size := alike.length_eq.symm
      simp only [Launch.ofProgram, Notice.programRead, LabelTable.collect_alike alike, size]
    exact ⟨Execution.result_alike ended, congrArg₂ Prod.mk notices same⟩
  · rw [runSource_of_refused read failed, runSource_of_refused read' failed']
    exact ⟨.some (.error ⟨rfl, rfl, rfl, place⟩), rfl⟩

end RunSource

namespace Source.CarriageReturned

theorem dropLines_zero (source : List Char) : Diagnostic.dropLines 0 source = source := by
  cases source <;> rfl

theorem dropLines_carriageReturns (count lines : Nat) (source : List Char) :
    Diagnostic.dropLines (lines + 1) (List.replicate count '\r' ++ '\n' :: source) =
      Diagnostic.dropLines lines source := by
  induction count with
  | zero => rfl
  | succ count ih => exact ih

theorem dropLines {source other : List Char} (returned : CarriageReturned source other)
    (lines : Nat) :
    CarriageReturned (Diagnostic.dropLines lines source) (Diagnostic.dropLines lines other) := by
  induction returned generalizing lines with
  | done => cases lines <;> exact .done
  | @keep c source other returned ih =>
      cases lines with
      | zero =>
          rw [dropLines_zero, dropLines_zero]
          exact .keep returned
      | succ lines =>
          rw [Diagnostic.dropLines, Diagnostic.dropLines]
          split
          · exact ih lines
          · exact ih (lines + 1)
  | newline count returned ih =>
      cases lines with
      | zero =>
          rw [dropLines_zero, dropLines_zero]
          exact .newline count returned
      | succ lines =>
          rw [dropLines_carriageReturns]
          exact ih lines

/-- The first line has at most more carriage returns at its end. -/
theorem firstLine {source other : List Char} (returned : CarriageReturned source other) :
    ∃ count, other.takeWhile (· ≠ '\n') =
      source.takeWhile (· ≠ '\n') ++ List.replicate count '\r' := by
  induction returned with
  | done => exact ⟨0, rfl⟩
  | @keep c source other _ ih =>
      obtain ⟨count, same⟩ := ih
      by_cases newline : c = '\n'
      · exact ⟨0, by simp [newline]⟩
      · refine ⟨count, ?_⟩
        rw [List.takeWhile_cons_of_pos (by simp [newline]),
          List.takeWhile_cons_of_pos (by simp [newline]), same, List.cons_append]
  | newline count _ _ =>
      refine ⟨count, ?_⟩
      rw [List.takeWhile_append_of_pos]
      · simp
      · intro c member
        rw [List.eq_of_mem_replicate member]
        rfl

theorem sourceLine_eq {source other : String}
    (returned : CarriageReturned source.toList other.toList) (line : Nat) :
    Diagnostic.sourceLine other line = Diagnostic.sourceLine source line := by
  obtain ⟨count, same⟩ := (returned.dropLines (line - 1)).firstLine
  have blank : ∀ c ∈ List.replicate count '\r', decide (c = '\r') = true := by
    intro c member
    rw [List.eq_of_mem_replicate member]
    rfl
  simp only [Diagnostic.sourceLine, same, List.reverse_append, List.reverse_replicate]
  rw [List.dropWhile_append_of_pos blank]

/-- A diagnostic at the same place is shown in the same way. -/
theorem present_eq {source other : String}
    (returned : CarriageReturned source.toList other.toList) {diagnostic diagnostic' : Diagnostic}
    (alike : Diagnostic.Alike Position.SamePlace diagnostic diagnostic') :
    diagnostic'.present other = diagnostic.present source := by
  unfold Diagnostic.present
  dsimp only
  rw [alike.phase, alike.message, alike.hint, alike.position.file, alike.position.line,
    alike.position.column, returned.sourceLine_eq]

end Source.CarriageReturned

/-- However a source that has tokens is laid out, it has the same tokens apart from ends of
statements that blank lines add, its run reports, asks for and leaves the same, and it ends alike,
with an error at the corresponding token if with one. Carriage returns at the ends of lines do not
even change how an error is shown. -/
theorem runSource_relaid {source file : String} {tokens : List Token}
    (read : Token.readAll source file = .ok tokens) :
    (∀ other : String, Source.Relaid true source.toList other.toList →
      ∃ others, Token.readAll other file = .ok others ∧
        Token.Aligned (fun token token' => token'.kind = token.kind ∧ token'.text = token.text) true
          tokens others ∧
        ∀ {σ : Type} [Host σ] (fuel : Nat) (options : RunOptions) (host : σ),
          Option.Rel (Diagnosed (Diagnostic.Alike (Counterparts tokens others)))
            (runSource fuel source file options host).1
            (runSource fuel other file options host).1 ∧
          (runSource fuel other file options host).2 =
            (runSource fuel source file options host).2) ∧
    (∀ other : String, Source.CarriageReturned source.toList other.toList →
      ∀ {σ : Type} [Host σ] (fuel : Nat) (options : RunOptions) (host : σ),
        Option.Rel (Diagnosed fun diagnostic diagnostic' =>
            diagnostic'.position.line = diagnostic.position.line ∧
            diagnostic'.position.column = diagnostic.position.column ∧
            diagnostic'.present other = diagnostic.present source)
          (runSource fuel source file options host).1
          (runSource fuel other file options host).1) := by
  constructor
  · intro other relaid
    obtain ⟨others, read', aligned⟩ := relaid.readAll read
    refine ⟨others, read', aligned.imp fun _ _ same => ⟨same.kind, same.text⟩, ?_⟩
    have placed : Token.Aligned (Token.Alike (Counterparts tokens others)) true tokens others := by
      refine (aligned.zip fun _ _ same => same.kind).imp fun token token' found => ?_
      refine ⟨found.1.kind, found.1.text, fun inLine => .inl ?_⟩
      exact ⟨(token, token'), found.2 inLine, rfl, rfl⟩
    intro σ _ fuel options host
    exact runSource_alike (.inr ⟨rfl, rfl⟩) read read' placed fuel options host
  · intro other returned σ _ fuel options host
    obtain ⟨others, read', aligned⟩ := returned.readAll read
    have alike := (runSource_alike (.refl _) read read' aligned fuel options host).1
    generalize (runSource fuel source file options host).1 = result,
      (runSource fuel other file options host).1 = result' at alike
    cases alike with
    | none => exact .none
    | some diagnosed =>
        refine .some (diagnosed.imp fun diagnostic diagnostic' same => ?_)
        exact ⟨same.position.line, same.position.column, returned.present_eq same⟩

theorem runSource_relaid_jump :
    let source := "goto a\n"
    let relaid := "\n goto\t a \r\n"
    let returned := "goto a\r\r\n"
    let world := World.quiet [] FileTable.empty
    ∃ tokens others, Token.readAll source "<input>" = .ok tokens ∧
      Token.readAll relaid "<input>" = .ok others ∧
      Option.Rel (Diagnosed (Diagnostic.Alike (Counterparts tokens others)))
        (runSource 3 source "<input>" .default world).1
        (runSource 3 relaid "<input>" .default world).1 ∧
      Option.Rel (Diagnosed fun diagnostic diagnostic' =>
          diagnostic'.position.line = diagnostic.position.line ∧
          diagnostic'.position.column = diagnostic.position.column ∧
          diagnostic'.present returned = diagnostic.present source)
        (runSource 3 source "<input>" .default world).1
        (runSource 3 returned "<input>" .default world).1 := by
  intro source relaid returned world
  let tokens : List Token := [⟨.keyword .goto, "goto", 4, ⟨"<input>", 1, 1, 0⟩⟩,
    ⟨.identifier, "a", 1, ⟨"<input>", 1, 6, 5⟩⟩, ⟨.endOfStatement, "", 1, ⟨"<input>", 1, 7, 6⟩⟩]
  have read : Token.readAll "goto a\n" "<input>" = .ok tokens := by decide +kernel
  have laidOut : Source.Relaid true "goto a\n".toList "\n goto\t a \r\n".toList := by
    have newline : Source.Relaid false "\n".toList " \r\n".toList :=
      .blank rfl (.blank rfl (@Source.Relaid.lexeme _ _ _ _ _
        ⟨.endOfStatement, "", ['\n']⟩ rfl rfl .done))
    have name : Source.Relaid false " a\n".toList "\t a \r\n".toList :=
      .blank rfl (.keep rfl (@Source.Relaid.lexeme _ _ _ _ _
        ⟨.identifier, "a", ['a']⟩ rfl rfl newline))
    exact .blankLine (.blank rfl (@Source.Relaid.lexeme _ _ _ _ _
      ⟨.keyword .goto, "goto", ['g', 'o', 't', 'o']⟩ rfl rfl name))
  have ended : Source.CarriageReturned "goto a\n".toList "goto a\r\r\n".toList :=
    .keep (.keep (.keep (.keep (.keep (.keep (.newline 2 .done))))))
  obtain ⟨same, shown⟩ := runSource_relaid read
  obtain ⟨others, read', _, runs⟩ := same relaid laidOut
  exact ⟨tokens, others, read, read', (runs 3 .default world).1,
    shown returned ended 3 .default world⟩

end LineScript
