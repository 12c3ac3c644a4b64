import LineScript.CommandLine
import LineScript.Directory

/-!
The program: carries invocations out on the real host.
-/

namespace LineScript.Console

/-- The reason that the host gives for a failure. -/
def reason : IO.Error → String
  | .noFileOrDirectory _ _ _ | .noSuchThing _ _ _ => PathError.notFound.message
  | .resourceBusy code details => s!"{details} (os error {code})"
  | .inappropriateType _ 21 _ => PathError.isDirectory.message
  | .inappropriateType _ 20 _ => PathError.notDirectory.message
  | .permissionDenied _ code details => s!"{details} (os error {code})"
  | error => error.toString

def attempt {α : Type} (action : IO α) : IO (Except String α) := do
  try
    return .ok (← action)
  catch error =>
    return .error (reason error)

def withPath {α : Type} (path : String) (action : IO α) : IO (Except String α) :=
  if path.contains '\x00' then return .error PathError.nulByte.message else attempt action

def answer : (request : Request) → IO request.Reply
  | .write bytes => attempt do (← IO.getStdout).write ⟨bytes.toArray⟩
  | .flush => attempt do (← IO.getStdout).flush
  | .readByte => do
      match ← attempt do (← IO.getStdin).read 1 with
      | .error reason => return .failed reason
      | .ok bytes =>
          match bytes.data[0]? with
          | some byte => return .byte byte
          | none => return .exhausted
  | .readFile path => withPath path do return (← IO.FS.readBinFile path).data.toList
  | .writeFile path bytes => withPath path do IO.FS.writeBinFile path ⟨bytes.toArray⟩

def report (verbosity : Nat) (notices : List Notice) : IO Unit := do
  for notice in notices do
    if CommandLine.shows verbosity notice then
      IO.eprintln (notice.severity.name ++ " [ez] " ++ notice.message)

def finish (plan : Plan) (start : Execution) : IO Outcome := do
  let mut execution := start
  let mut outcome : Outcome := .ok .pastEnd
  repeat
    match execution.outcome? with
    | some ended =>
        outcome := ended
        break
    | none => execution ← (execution.transition plan).perform answer
  return outcome

def carryOut (invocation : CommandLine.Invocation) : IO UInt32 := do
  let (started, notices) ← invocation.start.perform answer
  report invocation.verbosity notices
  let result ←
    match started with
    | .error complaint => pure (.error complaint)
    | .ok prepared => do
        let outcome ← finish prepared.launch.plan prepared.launch.execution
        pure (prepared.conclude outcome)
  match result with
  | .ok () => return 0
  | .error complaint =>
      report invocation.verbosity (complaint.notices invocation.file)
      IO.eprint complaint.text
      return 1

end LineScript.Console

def main (args : List String) : IO UInt32 := do
  match LineScript.CommandLine.read args with
  | .run invocation => LineScript.Console.carryOut invocation
  | .version => do IO.print LineScript.CommandLine.version; return 0
  | .help => do IO.print LineScript.CommandLine.help; return 0
  | .misuse reason => do
      IO.eprint s!"error: {reason}\n\n{LineScript.CommandLine.usage}"
      return 2
