import LineScript.Numeral
import LineScript.Position

/-!
What can go wrong while a program runs. `Breach` stands for a use of an operand list or of memory
outside its bounds. The checks made before each such use exclude it, so no run reports one.
-/

namespace LineScript

inductive Breach
  | missingOperand
  | cellOutside (address : Nat)
  | rangeOutside (start stop : Nat)
deriving DecidableEq, Repr

inductive RunFault
  | undefinedVariable (name : String)
  | undefinedLabel (label : String)
  | undefinedFunction (name : String)
  | argumentCount (name : String) (expected found : Nat)
  | unexpectedString
  | expectedVariable
  | expectedString
  | addressOutOfBounds (address : Int64) (size : Nat)
  | rangeOutOfBounds (start : Nat) (length : Int) (size : Nat)
  | divisionByZero
  | invalidExponent (exponent : Int64)
  | endOfInput
  | input (reason : String)
  | output (reason : String)
  | fileSystem (path reason : String)
  | breach (what : Breach)
deriving DecidableEq, Repr

namespace RunFault

def message : RunFault → String
  | .undefinedVariable name => s!"variable '{name}' does not exist"
  | .undefinedLabel label => s!"label '{label}' does not exist"
  | .undefinedFunction name => s!"function '{name}' does not exist"
  | .argumentCount name expected found =>
      s!"incorrect number of arguments to '{name}': expected " ++ Numeral.ofNat expected ++
        ", found " ++ Numeral.ofNat found
  | .unexpectedString => "expected identifier or literal int not literal str"
  | .expectedVariable => "expected identifier not literal"
  | .expectedString => "expected string literal"
  | .addressOutOfBounds address _ => "invalid memory address (" ++ Numeral.ofWord address ++ ")"
  | .rangeOutOfBounds start length _ =>
      "memory out of bounds (" ++ Numeral.ofInt length ++ " cells from " ++
        Numeral.ofNat start ++ ")"
  | .divisionByZero => "division by zero"
  | .invalidExponent exponent => "invalid exponent (" ++ Numeral.ofWord exponent ++ ")"
  | .endOfInput => "end of input"
  | .input reason => s!"failed to read input: {reason}"
  | .output reason => s!"failed to write output: {reason}"
  | .fileSystem path reason => s!"{path}: {reason}"
  | .breach _ => "operation outside its bounds"

def hint? : RunFault → Option String
  | .undefinedVariable name => some s!"assign '{name}' before reading it"
  | .addressOutOfBounds _ size | .rangeOutOfBounds _ _ size =>
      some ("valid addresses are 0 to " ++ Numeral.ofNat (size - 1) ++
        "; use memory=<cells> to resize")
  | _ => none

/-- What the host answered, for a fault that is the host's. -/
def hostReason? : RunFault → Option String
  | .input reason | .output reason | .fileSystem _ reason => some reason
  | _ => none

end RunFault

structure RunError where
  fault : RunFault
  position : Position
deriving DecidableEq, Repr

namespace RunError

def message (error : RunError) : String :=
  error.fault.message

def hint? (error : RunError) : Option String :=
  error.fault.hint?

end RunError
end LineScript
