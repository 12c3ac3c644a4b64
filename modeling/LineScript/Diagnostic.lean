import LineScript.RunError
import LineScript.Statement.Form
import LineScript.Token.Source

/-!
Diagnostics: errors of any phase, shown against the source they came from. The line at fault is
echoed with a caret under the column; the padding before the caret repeats the tabs of the line.
-/

namespace LineScript

inductive Phase
  | lexing
  | parsing
  | runtime
deriving DecidableEq, Repr

def Phase.name : Phase → String
  | .lexing => "lexing"
  | .parsing => "parsing"
  | .runtime => "runtime"

structure Diagnostic where
  phase : Phase
  position : Position
  message : String
  hint? : Option String
deriving DecidableEq, Repr

namespace Diagnostic

def ofLexicalError (error : LexicalError) : Diagnostic :=
  ⟨.lexing, error.position, error.message, error.hint?⟩

def ofInvalidStatement (error : InvalidStatement) : Diagnostic :=
  ⟨.parsing, error.position, error.message, none⟩

def ofRunError (error : RunError) : Diagnostic :=
  ⟨.runtime, error.position, error.message, error.hint?⟩

/-- What follows the first `count` line feeds, or nothing when there are fewer. -/
def dropLines : Nat → List Char → List Char
  | 0, source => source
  | _ + 1, [] => []
  | count + 1, c :: rest =>
      if c = '\n' then dropLines count rest else dropLines (count + 1) rest

/-- The line of that number, counted from one, without the carriage returns at its end. A number
past the last line gives an empty line, and zero gives the first. -/
def sourceLine (source : String) (line : Nat) : List Char :=
  let full := (dropLines (line - 1) source.toList).takeWhile (· ≠ '\n')
  (full.reverse.dropWhile (· = '\r')).reverse

def padding (line : List Char) (column : Nat) : List Char :=
  (line.take (column - 1)).map fun c => if c = '\t' then '\t' else ' '

/-- The message as it is shown for `source`. -/
def present (diagnostic : Diagnostic) (source : String) : String :=
  let position := diagnostic.position
  let line := sourceLine source position.line
  let hint := match diagnostic.hint? with
    | some hint => s!"\n|  ? {hint}"
    | none => ""
  s!"| An error occurred during {diagnostic.phase.name}:\n|  File {position.file}, line " ++
    Numeral.ofNat position.line ++ " col " ++ Numeral.ofNat position.column ++ "\n|\n|  " ++
    String.ofList line ++ "\n|  " ++ String.ofList (padding line position.column) ++ "^ " ++
    diagnostic.message ++ hint

end Diagnostic
end LineScript
