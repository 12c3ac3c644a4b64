import LineScript.Interpreter

/-!
The command line. The first text that is no flag names the source file and the others are run
options; after `--` nothing is a flag. Options are checked before the file is read.
-/

namespace LineScript.CommandLine

structure Invocation where
  file : String
  options : List String
  verbosity : Nat
deriving DecidableEq, Repr

inductive Wish
  | run (invocation : Invocation)
  | version
  | help
  | misuse (reason : String)
deriving DecidableEq, Repr

def version : String := "ez 0.1.0\n"

def usage : String :=
  "Usage: ez [OPTIONS] <FILE> [OPTIONS]...\n"

def help : String :=
  "Runs programs written in the ez line-oriented scripting language\n\n" ++ usage ++ "\n" ++
    "Arguments:\n" ++
    "  <FILE>        Source file to run\n" ++
    "  [OPTIONS]...  Run options as key=value pairs. Recognized: memory=<cells>\n\n" ++
    "Options:\n" ++
    "  -v, --verbose...  Log more (-v info, -vv debug, -vvv trace)\n" ++
    "  -h, --help        Print help\n" ++
    "  -V, --version     Print version\n"

/-- What a cluster of one-letter flags asks for: so much more verbosity, or an early end. -/
def readFlags (verbosity : Nat) : List Char → Except Wish Nat
  | [] => .ok verbosity
  | 'v' :: flags => readFlags (verbosity + 1) flags
  | 'V' :: _ => .error .version
  | 'h' :: _ => .error .help
  | flag :: _ => .error (.misuse ("unexpected argument '-" ++ flag.toString ++ "'"))

def readFlag (verbosity : Nat) (flag : String) : Except Wish Nat :=
  if flag = "--verbose" then .ok (verbosity + 1)
  else if flag = "--version" then .error .version
  else if flag = "--help" then .error .help
  else if flag.startsWith "--" then .error (.misuse s!"unexpected argument '{flag}'")
  else readFlags verbosity (flag.toList.drop 1)

def isFlag (arg : String) : Bool :=
  arg.startsWith "-" && arg != "-"

/-- The wish that texts without flags and a verbosity come to. -/
def ofPositionals (verbosity : Nat) : List String → Wish
  | [] => .misuse "the required argument <FILE> was not provided"
  | file :: options => .run ⟨file, options, verbosity⟩

/-- Reads on. `positionals` holds, in reverse, the texts before that are no flags. -/
def readFrom (verbosity : Nat) (positionals : List String) : List String → Wish
  | [] => ofPositionals verbosity positionals.reverse
  | arg :: args =>
      if arg = "--" then
        match positionals.reverse ++ args with
        | "" :: _ => .misuse "the file name is empty"
        | all => ofPositionals verbosity all
      else if isFlag arg then
        match readFlag verbosity arg with
        | .ok verbosity => readFrom verbosity positionals args
        | .error wish => wish
      else if positionals = [] ∧ arg = "" then .misuse "the file name is empty"
      else readFrom verbosity (arg :: positionals) args

def read (args : List String) : Wish :=
  readFrom 0 [] args

/-- Information is for the verbose; errors and warnings are for everyone. -/
def shows (verbosity : Nat) (notice : Notice) : Bool :=
  0 < verbosity || notice.severity ≠ .information

/-- Why an invocation fails. -/
inductive Complaint
  | options (error : OptionError)
  | unreadable (file reason : String)
  | diagnostic (error : Diagnostic) (source : String)
deriving DecidableEq, Repr

namespace Complaint

def text : Complaint → String
  | .options error => s!"Error: {error.describe}\n"
  | .unreadable file reason =>
      "Error: " ++ Text.quotedString s!"failed to read {file}: {reason}" ++ "\n"
  | .diagnostic error source => error.present source ++ "\n"

def notices (file : String) : Complaint → List Notice
  | .diagnostic error _ => [.runFailed file error.phase.name]
  | _ => []

end Complaint

/-- An invocation whose program is read and ready to run. -/
structure Prepared where
  source : String
  launch : Launch

def readSource (file : String) : Interaction (Except String String) := do
  match ← Interaction.request (.readFile file) with
  | .error reason => return .error reason
  | .ok bytes =>
      match Bytes.text? bytes with
      | some source => return .ok source
      | none => return .error "stream did not contain valid UTF-8"

/-- Prepares the run of an invocation, with the notices of the preparation. -/
def Invocation.start (invocation : Invocation) :
    Interaction (Except Complaint Prepared × List Notice) := do
  let (options, notices) := RunOptions.readAll invocation.options
  match options with
  | .error error => return (.error (.options error), notices)
  | .ok options =>
      match ← readSource invocation.file with
      | .error reason => return (.error (.unreadable invocation.file reason), notices)
      | .ok source =>
          match Launch.ofSource source invocation.file options with
          | .error error => return (.error (.diagnostic error source), notices)
          | .ok launch => return (.ok ⟨source, launch⟩, notices ++ launch.notices)

def Prepared.conclude (prepared : Prepared) (outcome : Outcome) : Except Complaint Unit :=
  outcome.diagnose.mapError fun error => .diagnostic error prepared.source

/-- What an invocation leaves behind besides the output and files of its program. -/
structure Report where
  complaint? : Option Complaint
  notices : List Notice

/-- Carries an invocation out on a host. The report is `none` when the fuel did not suffice. -/
def Invocation.carryOut {σ : Type} [Host σ] (fuel : Nat) (invocation : Invocation) (host : σ) :
    Option Report × σ :=
  let report := fun (result : Except Complaint Unit) (notices : List Notice) =>
    match result with
    | .ok () => ⟨none, notices⟩
    | .error complaint => ⟨some complaint, notices ++ complaint.notices invocation.file⟩
  match invocation.start.run host with
  | ((.error complaint, notices), host) => (some (report (.error complaint) notices), host)
  | ((.ok prepared, notices), host) =>
      let (execution, host) :=
        prepared.launch.execution.advance prepared.launch.plan fuel host
      (execution.outcome?.map fun outcome => report (prepared.conclude outcome) notices, host)

end LineScript.CommandLine
