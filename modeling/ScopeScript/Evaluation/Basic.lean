import ScopeScript.Evaluation.Machine

namespace ScopeScript

/-- The value of an operator. Sums, differences and products wrap to 64 bits, and
a quotient is cut towards zero and wraps too. -/
def Operator.apply (left right : Int64) : Operator → Except RuntimeError Value
  | .add => .ok (.integer (left + right))
  | .subtract => .ok (.integer (left - right))
  | .multiply => .ok (.integer (left * right))
  | .divide => if right = 0 then .error .divisionByZero else .ok (.integer (left / right))
  | .greater => .ok (.boolean (decide (right < left)))
  | .less => .ok (.boolean (decide (left < right)))

/-- What a call does with the closure and the values of its arguments. -/
abbrev Caller := Closure → List Value → Evaluation (Option Value)

open Evaluation

mutual

/-- The value of an expression, if it has one. Operands are evaluated and checked
one after the other. -/
def Expr.eval (call : Caller) : Expr → Evaluation (Option Value)
  | .name name => do return some (← lookup name)
  | .integer value => pure (some (.integer value))
  | .boolean value => pure (some (.boolean value))
  | .binary op left right => do
    let first ← integer (.operand op) (← left.eval call)
    let second ← integer (.operand op) (← right.eval call)
    match op.apply first second with
    | .ok value => pure (some value)
    | .error error => fail error
  | .ifThen condition consequence => do
    let holds ← boolean .condition (← condition.eval call)
    if holds then nested (Stmt.execAll call none consequence) else pure none
  | .ifElse condition consequence alternative => do
    let holds ← boolean .condition (← condition.eval call)
    if holds then nested (Stmt.execAll call none consequence)
    else nested (Stmt.execAll call none alternative)
  | .function parameters body => do return some (← capture parameters body)
  | .call callee arguments => do
    let closure ← callable (← callee.eval call)
    if closure.parameters.length = arguments.length then
      call closure (← Expr.evalAll call arguments)
    else fail (.arityMismatch closure.parameters.length arguments.length)

/-- The values of arguments, the first one first. -/
def Expr.evalAll (call : Caller) : List Expr → Evaluation (List Value)
  | [] => pure []
  | argument :: more => do
    let value ← present .argument (← argument.eval call)
    return value :: (← Expr.evalAll call more)

/-- Executes a statement. Bindings yield what they bind. -/
def Stmt.exec (call : Caller) : Stmt → Evaluation (Option Value)
  | .var name value => do
    let bound ← present .initializer (← value.eval call)
    define name bound
    return some bound
  | .function name parameters body => do
    let bound ← capture parameters body
    define name bound
    return some bound
  | .returns value => do throw (.returned (← value.eval call))
  | .exits code => do throw (.exited (← integer .exitCode (← code.eval call)))
  | .expression value => value.eval call

/-- Executes statements in order. The last one gives the value; if there is none,
`last` is the value. -/
def Stmt.execAll (call : Caller) (last : Option Value) : List Stmt → Evaluation (Option Value)
  | [] => pure last
  | stmt :: more => do
    let value ← stmt.exec call
    Stmt.execAll call value more

end

/-- Calls with at most `depth` calls open at once. The body runs in a new scope
inside the one that the closure captured. -/
def invoke : Nat → Caller
  | 0, _, _ => throw .tooDeep
  | depth + 1, closure, values => do
    let scope ← openScope closure.scope closure.parameters values
    untilReturn (within scope (Stmt.execAll (invoke depth) none closure.body))

end ScopeScript
