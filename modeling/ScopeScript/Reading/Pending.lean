import ScopeScript.Program.Basic
import ScopeScript.Token.Kind

namespace ScopeScript

/-- A place that waits for an expression, with all that was read before it. An
expression put there completes a statement, a condition or a larger expression.
Arguments that were read stand newest first. -/
inductive Hole
  | statement
  | initializer (name : String)
  | result
  | exitCode
  | statementCondition
  | condition (outer : Hole)
  | group (outer : Hole)
  | negation (outer : Hole)
  | right (op : Operator) (left : Expr) (outer : Hole)
  | argument (callee : Expr) (earlier : List Expr) (outer : Hole)

/-- Where an `if` stands. As a statement it ends at its last brace, as an operand
it may be operated on or called. -/
inductive IfSite
  | statement
  | operand (outer : Hole)

/-- Where the condition of the `if` goes. -/
def IfSite.conditionHole : IfSite → Hole
  | .statement => .statementCondition
  | .operand outer => .condition outer

/-- What a function will be: a statement that names it, or an operand. -/
inductive FunctionSite
  | statement (name : String)
  | operand (outer : Hole)

/-- What an open block belongs to. -/
inductive BlockOwner
  | consequence (condition : Expr) (site : IfSite)
  | alternative (condition : Expr) (consequence : Block) (site : IfSite)
  | body (parameters : List String) (site : FunctionSite)

/-- What the next token must be or begin. Parameters that were read stand newest
first. -/
inductive Expectation
  | statement
  | variableName
  | equalSign (name : String)
  | functionName
  | operand (hole : Hole)
  | operator (left : Expr) (hole : Hole)
  | firstArgument (callee : Expr) (hole : Hole)
  | conditionOpen (site : IfSite)
  | consequenceOpen (condition : Expr) (site : IfSite)
  | elseWord (condition : Expr) (consequence : Block) (site : IfSite)
  | alternativeOpen (condition : Expr) (consequence : Block) (site : IfSite)
  | parametersOpen (site : FunctionSite)
  | firstParameter (site : FunctionSite)
  | nextParameter (earlier : List String) (site : FunctionSite)
  | parametersEnd (earlier : List String) (site : FunctionSite)
  | bodyOpen (earlier : List String) (site : FunctionSite)

/-- The operator that a sign stands for. -/
def Operator.ofSign? : Punctuation → Option Operator
  | .plus => some .add
  | .minus => some .subtract
  | .star => some .multiply
  | .slash => some .divide
  | .greater => some .greater
  | .less => some .less
  | _ => none

/-- The hole for the right operand of `op` behind the operand `left`. Pending
operators that bind no looser than `op` take `left` first, so equal levels group
to the left. -/
def Hole.behind (op : Operator) (left : Expr) : Hole → Hole
  | .right pending first outer =>
    if pending.level < op.level then .right op left (.right pending first outer)
    else outer.behind op (.binary pending first left)
  | .negation outer => outer.behind op left.negation
  | hole => .right op left hole

end ScopeScript
