import LineScript.Library

/-!
The builtins that every run starts with. A handler makes its checks before it changes anything; only
reading a file asks the host in between, because the length of the file has to be checked too.
-/

namespace LineScript

namespace Operand

/-- Fails at the first text among operands that have to be numbers or variables. -/
def refuseText (args : List Operand) : Except RunError Unit :=
  match args.find? isText with
  | some operand => .error ⟨.unexpectedString, operand.position⟩
  | none => .ok ()

def asVariable (operand : Operand) : Except RunError String :=
  match operand.term with
  | .variable name => .ok name
  | _ => .error ⟨.expectedVariable, operand.position⟩

def asText (operand : Operand) : Except RunError String :=
  match operand.term with
  | .text content => .ok content
  | _ => .error ⟨.expectedString, operand.position⟩

end Operand

namespace Builtin
open Command

/-- What a handler does when it gets fewer or more operands than its arity allows. -/
def outOfOperands (call : Position) : Command Unit :=
  fail (.breach .missingOperand) call

def showCharacter (call : Position) : List Operand → Command Unit
  | [operand] => do
      ofExcept (Operand.refuseText [operand])
      let value ← evaluate operand
      emit [lowByte value] call
  | _ => outOfOperands call

def showNumber (call : Position) : List Operand → Command Unit
  | [operand] => do
      ofExcept (Operand.refuseText [operand])
      let value ← evaluate operand
      emit (.ofText (Numeral.ofWord value)) call
  | _ => outOfOperands call

def takeByte (call : Position) : List Operand → Command Unit
  | [target] => do
      ofExcept (Operand.refuseText [target])
      let name ← ofExcept target.asVariable
      let byte ← nextByte call
      assign name (byteWord byte)
  | _ => outOfOperands call

def setCell (call : Position) : List Operand → Command Unit
  | [cell, source] => do
      ofExcept (Operand.refuseText [cell, source])
      let address ← cellOf cell call
      let value ← evaluate source
      writeCell address value call
  | _ => outOfOperands call

def getCell (call : Position) : List Operand → Command Unit
  | [cell, target] => do
      ofExcept (Operand.refuseText [cell, target])
      let address ← cellOf cell call
      let name ← ofExcept target.asVariable
      let value ← readCell address call
      assign name value
  | _ => outOfOperands call

/-- What a text operand says, or the numeral of any other. -/
def shownValue (store : Store) (operand : Operand) : Except RunError String :=
  match operand.term with
  | .text content => .ok content
  | _ => (store.evaluate operand).map Numeral.ofWord

def inspectionLine (operand : Operand) (value : String) : String :=
  "Debug: " ++ operand.token.text ++ " (" ++ operand.typeName ++ "): " ++ value ++ "\n"

/-- Writes a line for every operand, all of them in one piece. -/
def inspect (call : Position) (args : List Operand) : Command Unit := do
  let lines ← check fun store => args.mapM fun operand =>
    (shownValue store operand).map (inspectionLine operand)
  emit (.ofText (String.join lines)) call

def fillFromFile (call : Position) : List Operand → Command Unit
  | [file, cell, length] => do
      ofExcept (Operand.refuseText [cell, length])
      let path ← ofExcept file.asText
      let name ← ofExcept length.asVariable
      let start ← cellOf cell call
      let bytes ← loadFile path call
      let stop ← rangeEnd start bytes.length call
      writeCells start stop (bytes.map byteWord) call
      assign name (Int64.ofNat bytes.length)
  | _ => outOfOperands call

def dumpToFile (call : Position) : List Operand → Command Unit
  | [file, cell, length] => do
      ofExcept (Operand.refuseText [cell, length])
      let path ← ofExcept file.asText
      let start ← cellOf cell call
      let count ← evaluate length
      let stop ← rangeEnd start count.toInt call
      let cells ← readCells start stop call
      saveFile path (cells.map lowByte) call
  | _ => outOfOperands call

def standard : List (String × Builtin) :=
  [("showc", ⟨.fixed 1, true, showCharacter⟩),
    ("shown", ⟨.fixed 1, true, showNumber⟩),
    ("input", ⟨.fixed 1, false, takeByte⟩),
    ("memset", ⟨.fixed 2, true, setCell⟩),
    ("memget", ⟨.fixed 2, false, getCell⟩),
    ("debug", ⟨.any, true, inspect⟩),
    ("read_file", ⟨.fixed 3, false, fillFromFile⟩),
    ("write_file", ⟨.fixed 3, false, dumpToFile⟩)]

end Builtin

def Library.standard : Library :=
  Builtin.standard.foldl (fun library entry => library.add entry.1 entry.2) .empty

end LineScript
