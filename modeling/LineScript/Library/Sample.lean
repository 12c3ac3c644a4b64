import LineScript.Library.Standard

/-!
Sample handlers for hosts that add builtins of their own.
-/

namespace LineScript.Builtin
open Command

/-- Doubles every variable operand in place, in order; the other operands only have to be
numbers. -/
def double (_ : Position) (args : List Operand) : Command Unit :=
  args.forM fun operand => do
    let value ← evaluate operand
    match operand.term with
    | .variable name => assign name (2 * value)
    | _ => pure ()

/-- Writes the type and text of every operand, then the place of the call. -/
def describe (call : Position) (args : List Operand) : Command Unit :=
  let operands := args.map fun operand => operand.typeName ++ ":" ++ operand.token.text ++ ";"
  let place := "@" ++ Numeral.ofNat call.line ++ ":" ++ Numeral.ofNat call.column ++ "\n"
  emit (.ofText (String.join operands ++ place)) call

def alwaysFail (call : Position) (_ : List Operand) : Command Unit :=
  fail .endOfInput call

def doNothing (_ : Position) (_ : List Operand) : Command Unit :=
  pure ()

end LineScript.Builtin
