import LineScript.LabelTable
import LineScript.Library.Standard

/-!
Running a program. A run executes one statement at a time and flushes the output once when it is
over, whether it succeeded or not. Each transition is one interaction with the host, and nothing is
remembered between transitions but the store and where the run stands.
-/

namespace LineScript

/-- What follows a statement: the one after it, the one at an index, or the end of the run. -/
inductive Succession
  | proceed
  | jump (index : Nat)
  | stop
deriving DecidableEq, Repr

/-- What does not change during a run. -/
structure Plan where
  program : Program
  labels : LabelTable
  library : Library

def Plan.new (library : Library) (program : Program) : Plan :=
  ⟨program, .ofProgram program, library⟩

/-- An arithmetic fault is located at the right operand. -/
def Arithmetic.evalAt (op : Arithmetic) (lhs rhs : Int64) (position : Position) :
    Except RunError Int64 :=
  match op.eval lhs rhs with
  | .ok value => .ok value
  | .error .divisionByZero => .error ⟨.divisionByZero, position⟩
  | .error (.invalidExponent exponent) => .error ⟨.invalidExponent exponent, position⟩

namespace Statement
open Command

def execute (plan : Plan) : Statement → Command Succession
  | .assign target value => do
      Command.assign target (← evaluate value)
      return .proceed
  | .compute target op lhs rhs => do
      let left ← evaluate lhs
      let right ← evaluate rhs
      Command.assign target (← ofExcept (op.evalAt left right rhs.position))
      return .proceed
  | .branch op lhs rhs destination => do
      let left ← evaluate lhs
      let right ← evaluate rhs
      if op.eval left right then return .jump (← ofExcept (plan.labels.locate destination))
      else return .proceed
  | .label _ => return .proceed
  | .jump destination => return .jump (← ofExcept (plan.labels.locate destination))
  | .halt => return .stop
  | .call name args position => do
      plan.library.perform name args position
      return .proceed

end Statement

/-- How a run that did not fail came to its end. -/
inductive Ending
  | pastEnd
  | halted
deriving DecidableEq, Repr

abbrev Outcome := Except RunError Ending

inductive Stage
  | running (pointer : Nat)
  | closing (outcome : Outcome)
  | finished (outcome : Outcome)

structure Execution where
  stage : Stage
  store : Store

namespace Execution

def start (store : Store) : Execution :=
  ⟨.running 0, store⟩

def outcome? (execution : Execution) : Option Outcome :=
  match execution.stage with
  | .finished outcome => some outcome
  | _ => none

/-- Where a run stands after the statement at `pointer`. -/
def follow (pointer : Nat) : Except RunError Succession → Stage
  | .ok .proceed => .running (pointer + 1)
  | .ok (.jump index) => .running index
  | .ok .stop => .closing (.ok .halted)
  | .error error => .closing (.error error)

/-- An error of the run itself hides one of the last flush. -/
def conclude : Outcome → Except RunError Unit → Outcome
  | .error error, _ => .error error
  | .ok _, .error error => .error error
  | .ok ending, .ok () => .ok ending

def transition (plan : Plan) (execution : Execution) : Interaction Execution :=
  match execution.stage with
  | .running pointer =>
      match plan.program[pointer]? with
      | none => pure ⟨.closing (.ok .pastEnd), execution.store⟩
      | some statement => do
          let (result, store) ← (statement.execute plan).on execution.store
          return ⟨follow pointer result, store⟩
  | .closing outcome => do
      let (flushed, store) ←
        (Command.flush plan.program.lastPosition).on execution.store
      return ⟨.finished (conclude outcome flushed), store⟩
  | .finished _ => pure execution

variable {σ : Type} [Host σ]

/-- Makes transitions until the run has finished or the fuel is spent. -/
def advance (plan : Plan) : Nat → Execution → σ → Execution × σ
  | 0, execution, host => (execution, host)
  | fuel + 1, execution, host =>
      match execution.stage with
      | .finished _ => (execution, host)
      | _ =>
          let (after, host) := (transition plan execution).run host
          advance plan fuel after host

end Execution

/-- What persists between the runs of one session. -/
structure Session where
  store : Store
  library : Library

namespace Session

/-- A session with the given number of memory cells and the standard builtins. -/
def new (cells : Nat) : Session :=
  ⟨.new cells, .standard⟩

variable {σ : Type} [Host σ]

/-- Runs a program. There is no outcome when the fuel did not suffice. -/
def run (fuel : Nat) (session : Session) (program : Program) (host : σ) :
    Option Outcome × Session × σ :=
  let plan := Plan.new session.library program
  let (execution, host) := (Execution.start session.store).advance plan fuel host
  (execution.outcome?, { session with store := execution.store }, host)

end Session
end LineScript
