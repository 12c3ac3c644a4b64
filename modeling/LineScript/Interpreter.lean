import LineScript.RunOptions
import LineScript.Diagnostic
import LineScript.Execution

/-!
From source text to a finished run. The phases follow one another and the first error of any of them
is the result; nothing runs unless the whole source was read.
-/

namespace LineScript

def Program.ofSource (source file : String) : Except Diagnostic Program :=
  match Token.readAll source file with
  | .error error => .error (.ofLexicalError error)
  | .ok tokens => (Program.ofTokens tokens).mapError .ofInvalidStatement

/-- A run that is ready to begin, and what its preparation reported. -/
structure Launch where
  plan : Plan
  execution : Execution
  notices : List Notice

namespace Launch

def ofProgram (program : Program) (file : String) (options : RunOptions) : Launch :=
  let shadowings := (LabelTable.collect program).2
  ⟨.new .standard program, .start (.new options.memory),
    .programRead file program :: shadowings.map .shadowedLabel⟩

def ofSource (source file : String) (options : RunOptions) : Except Diagnostic Launch :=
  (Program.ofSource source file).map fun program => ofProgram program file options

end Launch

def Outcome.diagnose : Outcome → Except Diagnostic Unit
  | .ok _ => .ok ()
  | .error error => .error (.ofRunError error)

/-- Reads a source and runs it. There is no result when the fuel did not suffice. -/
def runSource {σ : Type} [Host σ] (fuel : Nat) (source file : String) (options : RunOptions)
    (host : σ) : Option (Except Diagnostic Unit) × List Notice × σ :=
  match Launch.ofSource source file options with
  | .error diagnostic => (some (.error diagnostic), [], host)
  | .ok launch =>
      let (execution, host) := launch.execution.advance launch.plan fuel host
      (execution.outcome?.map Outcome.diagnose, launch.notices, host)

end LineScript
