import LineScript.Notice
import LineScript.Text.Quoted

/-!
Run options, given as `key=value` texts. They are read from left to right: the first faulty one is
the error, and the last memory size counts.
-/

namespace LineScript

structure RunOptions where
  memory : Nat
deriving DecidableEq, Repr

inductive OptionError
  | malformedOption (option : String)
  | invalidMemory (value : String)
deriving DecidableEq, Repr

namespace OptionError

def message : OptionError → String
  | .malformedOption option => s!"invalid option: {option} (expected key=value)"
  | .invalidMemory value =>
      s!"invalid memory size: {value} (expected 1 to 268435456 cells)"

/-- The error as a record, with its text quoted. -/
def describe : OptionError → String
  | .malformedOption option =>
      "MalformedOption \x7b option: " ++ Text.quotedString option ++ " \x7d"
  | .invalidMemory value =>
      "InvalidMemory \x7b value: " ++ Text.quotedString value ++ " \x7d"

end OptionError

namespace RunOptions

def default : RunOptions := ⟨1 <<< 16⟩

/-- The largest memory, in cells. -/
def maxMemory : Nat := 1 <<< 28

def memorySize? (value : String) : Option Nat :=
  (Numeral.unsigned? value.toList).filter fun cells => 1 ≤ cells ∧ cells ≤ maxMemory

/-- The texts before and after the first equals sign. -/
def splitOption? (option : String) : Option (String × String) :=
  let cs := option.toList
  match cs.dropWhile (· ≠ '=') with
  | [] => none
  | _ :: value => some (String.ofList (cs.takeWhile (· ≠ '=')), String.ofList value)

/-- Reads one more option. -/
def readOption (chosen : RunOptions) (option : String) :
    Except OptionError (RunOptions × Notice) :=
  match splitOption? option with
  | none => .error (.malformedOption option)
  | some (key, value) =>
      if key = "memory" then
        match memorySize? value with
        | some cells => .ok (⟨cells⟩, .memorySet cells)
        | none => .error (.invalidMemory value)
      else .ok (chosen, .unknownOption key)

/-- Reads options after others. Notices come out also when an option is faulty. -/
def readFrom (chosen : RunOptions) (notices : List Notice) :
    List String → Except OptionError RunOptions × List Notice
  | [] => (.ok chosen, notices.reverse)
  | option :: options =>
      match readOption chosen option with
      | .error error => (.error error, notices.reverse)
      | .ok (chosen, notice) => readFrom chosen (notice :: notices) options

def readAll (options : List String) : Except OptionError RunOptions × List Notice :=
  readFrom default [] options

end RunOptions
end LineScript
