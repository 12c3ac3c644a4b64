import LineScript.Interpreter
import LineScript.Proofs.LineComposition

/-!
The end of a source ends its last line. With a line feed put after it, a source has the same
statements with the same tokens, or the same error, and so its run is the same on every host and its
errors are shown alike.
-/

namespace LineScript

namespace Program
open Line

theorem ofTokens_bare {stop : Token} (ends : stop.kind = .endOfStatement) :
    ofTokens [stop] = .ok #[] := by
  have bare : isBare [stop] = true := isBare_iff.mpr ⟨stop, rfl, ends⟩
  have reads : Reads (cut [stop]) [] := by
    rw [cut, if_pos ends]
    exact Reads.bare .nil bare
  exact ofTokens_of_reads reads

/-- What a line says does not depend on the token that ends it. -/
theorem exists_ofTokens_line {content : List Token}
    (inLine : ∀ token ∈ content, token.kind ≠ .endOfStatement) :
    ∃ result, ∀ stop : Token, stop.kind = .endOfStatement →
      ofTokens (content ++ [stop]) = result := by
  have lines (stop : Token) (ends : stop.kind = .endOfStatement) :
      cut (content ++ [stop]) = [content ++ [stop]] := cut_append inLine ends
  cases content with
  | nil => exact ⟨.ok #[], fun stop ends => ofTokens_bare ends⟩
  | cons first rest =>
      by_cases stated : ∃ shape statement, Statement.Written shape (first :: rest) statement
      · obtain ⟨shape, statement, written⟩ := stated
        refine ⟨.ok #[statement], fun stop ends => ?_⟩
        have holds : Holds shape (first :: rest ++ [stop]) statement :=
          ⟨_, stop, rfl, ends, written⟩
        have reads : Reads (cut (first :: rest ++ [stop])) [statement] := by
          rw [lines stop ends]
          exact Reads.cons .nil holds
        exact ofTokens_of_reads reads
      · refine ⟨.error ⟨first.position⟩, fun stop ends => ofTokens_of_failsAt ?_⟩
        rw [lines stop ends]
        refine ⟨[], _, [], first, rfl, by simp, ?_, rfl, rfl⟩
        rintro (bare | ⟨shape, statement, content, stop', split, _, written⟩)
        · obtain ⟨stop', same, _⟩ := isBare_iff.mp bare
          simp at same
        · obtain ⟨rfl, _⟩ := List.append_inj' split rfl
          exact stated ⟨shape, statement, written⟩

/-- A token that ends the last statement says no more than the end of the source does. -/
theorem ofTokens_close {stop : Token} (ends : stop.kind = .endOfStatement) (tokens : List Token)
    (theEnd : Position) : ofTokens (tokens ++ [stop]) = ofTokens (Token.close tokens theEnd) := by
  obtain ⟨same, ended⟩ | ⟨same, _⟩ := Token.close_cases tokens theEnd
  · rw [same, ofTokens_append ended, ofTokens_bare ends]
    cases ofTokens tokens with
    | error error => rfl
    | ok program => exact congrArg Except.ok (Array.append_empty ..)
  · -- Only the line that goes on is looked into; the lines before it are ended.
    let inLine : Token → Bool := Token.isInLine
    have split := @List.rdropWhile_append_rtakeWhile _ inLine tokens
    have ended : ∀ last ∈ (tokens.rdropWhile inLine).getLast?, last.kind = .endOfStatement := by
      intro last isLast
      obtain ⟨nonempty, rfl⟩ := List.mem_getLast?_eq_getLast isLast
      simpa [inLine, Token.isInLine] using List.rdropWhile_last_not inLine tokens nonempty
    have goesOn : ∀ token ∈ tokens.rtakeWhile inLine, token.kind ≠ .endOfStatement := by
      intro token member
      simpa [inLine, Token.isInLine] using List.mem_rtakeWhile_imp member
    obtain ⟨result, alike⟩ := exists_ofTokens_line goesOn
    rw [same, ← split, List.append_assoc, List.append_assoc, ofTokens_append ended,
      ofTokens_append ended, alike stop ends, alike _ rfl]

end Program

namespace Token

theorem Divided.append_newline {position : Position} {source : List Char} {tokens : List Token}
    {fault? : Option LexicalError} (divided : Divided position source tokens fault?) :
    Divided position (source ++ ['\n']) (tokens ++ fault?.elim
      [⟨.endOfStatement, "", 1, position.after source⟩] fun _ => []) fault? := by
  have newline : Divided (position.after source) ['\n']
      [⟨.endOfStatement, "", 1, position.after source⟩] none :=
    @Divided.lexeme _ ⟨.endOfStatement, "", ['\n']⟩ [] [] none .newline .done
  have longer := divided.append (.newline source []) newline
  rwa [Option.or_none] at longer

theorem readAll_append_newline (source file : String) :
    (readAll (source ++ "\n") file).map Program.ofTokens =
      (readAll source file).map Program.ofTokens := by
  obtain ⟨tokens, fault?, divided⟩ := exists_divided (.start file) source.toList
  have longer := divided.append_newline
  have ended : (source ++ "\n").toList = source.toList ++ ['\n'] := String.toList_append
  rw [← ended] at longer
  rw [longer.readAll_eq, divided.readAll_eq]
  cases fault? with
  | some error => rfl
  | none =>
      refine congrArg Except.ok ?_
      rw [Option.elim_none, close_append rfl]
      exact Program.ofTokens_close rfl tokens _

end Token

theorem Program.ofSource_eq (source file : String) :
    ofSource source file =
      match (Token.readAll source file).map ofTokens with
      | .error error => .error (.ofLexicalError error)
      | .ok result => result.mapError .ofInvalidStatement := by
  rw [ofSource]
  cases Token.readAll source file <;> rfl

namespace Diagnostic

theorem firstLine_dropLines_append (count : Nat) (source : List Char) :
    firstLine (dropLines count (source ++ ['\n'])) = firstLine (dropLines count source) := by
  induction source generalizing count with
  | nil => cases count with
    | zero => rfl
    | succ count => cases count <;> rfl
  | cons c rest ih =>
      cases count with
      | zero => exact firstLine_append_newline (c :: rest) []
      | succ count =>
          rw [List.cons_append, dropLines, dropLines]
          split
          · exact ih count
          · exact ih (count + 1)

theorem present_append_newline (diagnostic : Diagnostic) (source : String) :
    diagnostic.present (source ++ "\n") = diagnostic.present source := by
  have same (line : Nat) : sourceLine (source ++ "\n") line = sourceLine source line := by
    have lines := firstLine_dropLines_append (line - 1) source.toList
    rw [firstLine, firstLine] at lines
    rw [sourceLine, sourceLine, String.toList_append]
    exact congrArg (fun full => (full.reverse.dropWhile (· = '\r')).reverse) lines
  unfold present
  dsimp only
  rw [same]

end Diagnostic

/-- A missing line feed at the end of a source never matters. With it the source has the same
lexical error, the same invalid statement or the same statements with the same tokens; its run is
the same on every host, and a diagnostic is shown alike. -/
theorem runSource_append_newline (source file : String) :
    (Token.readAll (source ++ "\n") file).map Program.ofTokens =
      (Token.readAll source file).map Program.ofTokens ∧
    (∀ {σ : Type} [Host σ] (fuel : Nat) (options : RunOptions) (host : σ),
      runSource fuel (source ++ "\n") file options host =
        runSource fuel source file options host) ∧
    ∀ diagnostic : Diagnostic, diagnostic.present (source ++ "\n") = diagnostic.present source := by
  have tokens := Token.readAll_append_newline source file
  have program : Program.ofSource (source ++ "\n") file = Program.ofSource source file := by
    rw [Program.ofSource_eq, Program.ofSource_eq, tokens]
  refine ⟨tokens, fun fuel options host => ?_, fun diagnostic => ?_⟩
  · rw [runSource, runSource, Launch.ofSource, Launch.ofSource, program]
  · exact diagnostic.present_append_newline source

end LineScript
