namespace ScopeScript

/-- The binary operators. -/
inductive Operator
  | add
  | subtract
  | multiply
  | divide
  | greater
  | less
  deriving DecidableEq, Repr

namespace Operator

def symbol : Operator → String
  | add => "+"
  | subtract => "-"
  | multiply => "*"
  | divide => "/"
  | greater => ">"
  | less => "<"

/-- How tightly the operator binds: products before sums before comparisons.
Equal levels group to the left. -/
def level : Operator → Nat
  | greater | less => 1
  | add | subtract => 2
  | multiply | divide => 3

/-- A negation binds tighter than every operator, and only a call tighter still. -/
def negationLevel : Nat := 4

theorem level_pos (op : Operator) : 0 < op.level := by
  cases op <;> decide

theorem level_lt_negationLevel (op : Operator) : op.level < negationLevel := by
  cases op <;> decide

end Operator

mutual

/-- Whatever may stand for a value. There is no negation: it is a difference
from zero. -/
inductive Expr
  | name (name : String)
  | integer (value : Int64)
  | boolean (value : Bool)
  | binary (op : Operator) (left right : Expr)
  | ifThen (condition : Expr) (consequence : List Stmt)
  | ifElse (condition : Expr) (consequence alternative : List Stmt)
  | function (parameters : List String) (body : List Stmt)
  | call (callee : Expr) (arguments : List Expr)

/-- One step of a block. -/
inductive Stmt
  | var (name : String) (value : Expr)
  | function (name : String) (parameters : List String) (body : List Stmt)
  | returns (value : Expr)
  | exits (code : Expr)
  | expression (value : Expr)

end

/-- The statements between two braces, or of a whole program. -/
abbrev Block := List Stmt

/-- The value of `operand` taken from zero. -/
def Expr.negation (operand : Expr) : Expr :=
  .binary .subtract (.integer 0) operand

end ScopeScript
