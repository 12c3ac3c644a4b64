import LineScript.LabelTable

/-!
Notices: what a run reports about itself besides its output.
-/

namespace LineScript

inductive Severity
  | error
  | warning
  | information
deriving DecidableEq, Repr

def Severity.name : Severity → String
  | .error => "ERROR"
  | .warning => "WARN"
  | .information => "INFO"

structure Notice where
  severity : Severity
  message : String
deriving DecidableEq, Repr

namespace Notice

def memorySet (cells : Nat) : Notice :=
  ⟨.information, "memory size set to " ++ Numeral.ofNat cells ++ " cells"⟩

def unknownOption (key : String) : Notice :=
  ⟨.warning, s!"ignoring unknown option {key}"⟩

def programRead (file : String) (program : Program) : Notice :=
  ⟨.information, s!"{file}: " ++ Numeral.ofNat program.size ++ " statements"⟩

def shadowedLabel (shadowing : Shadowing) : Notice :=
  ⟨.warning, s!"label '{shadowing.label}' at statement " ++ Numeral.ofNat shadowing.index ++
    " shadows the one at statement " ++ Numeral.ofNat shadowing.previous⟩

def runFailed (file phase : String) : Notice :=
  ⟨.error, s!"{file} failed during {phase}"⟩

def warnings (notices : List Notice) : List String :=
  (notices.filter (·.severity = .warning)).map (·.message)

end Notice
end LineScript
