import ScopeScript.Evaluation.Basic

namespace ScopeScript

/-- How a program can end by itself: behind its last statement or with a return,
or with an exit. -/
inductive Completion
  | finished (value : Option Value)
  | exited (code : Int64)

namespace Completion

def same : Completion → Completion → Bool
  | finished left, finished right => left == right
  | exited left, exited right => left == right
  | _, _ => false

instance : BEq Completion := ⟨same⟩

def display : Completion → String
  | finished (some value) => "result: " ++ value.display
  | finished none => "result: nothing"
  | exited code => "exited with value " ++ code.toInt.repr

/-- The form that shows how a completion is built. -/
def detail : Completion → String
  | finished (some value) => "Finished(Some(" ++ value.detail ++ "))"
  | finished none => "Finished(None)"
  | exited code => "Exited(" ++ code.toInt.repr ++ ")"

end Completion

/-- How a run ends. -/
inductive Outcome
  | completed (completion : Completion)
  | failed (error : RuntimeError)
  | tooDeep

/-- A return at the top level ends the program with its value. -/
def Outcome.ofEnding : Except Interrupt (Option Value) → Outcome
  | .ok value => .completed (.finished value)
  | .error (.returned value) => .completed (.finished value)
  | .error (.exited code) => .completed (.exited code)
  | .error (.failed error) => .failed error
  | .error .tooDeep => .tooDeep

/-- Runs a program in the machine that earlier programs left, with at most `depth`
calls open at once. The machine is good for more programs whatever the outcome. -/
def Machine.interpret (depth : Nat) (program : Block) (machine : Machine) : Outcome × Machine :=
  let (ending, after) := (Stmt.execAll (invoke depth) none program).perform machine
  (.ofEnding ending, after)

/-- How many calls a program may have open at once where nobody sets a limit. -/
def callLimit : Nat := 100000

end ScopeScript
