import ScopeScript.Value.Basic

namespace ScopeScript

/-- What a value is needed for. -/
inductive Use
  | operand (op : Operator)
  | condition
  | initializer
  | argument
  | exitCode
  deriving DecidableEq, Repr

def Use.name : Use → String
  | operand op => "operator '" ++ op.symbol ++ "'"
  | condition => "if condition"
  | initializer => "var initializer"
  | argument => "call argument"
  | exitCode => "exit"

/-- What the use needs, in words. -/
def Use.needs : Use → String
  | operand _ => "integer"
  | condition => "boolean"
  | initializer => "a value"
  | argument => "a value"
  | exitCode => "integer"

/-- Why a run cannot go on. Where a value may be missing, `found` is `none`. -/
inductive RuntimeError
  | typeMismatch (use : Use) (found : Option ValueKind)
  | unbound (name : String)
  | divisionByZero
  | notCallable (found : Option ValueKind)
  | arityMismatch (expected found : Nat)
  deriving DecidableEq, Repr

/-- The kind of a value that may be missing, in words. -/
def describe : Option ValueKind → String
  | some kind => kind.name
  | none => "nothing"

def RuntimeError.message : RuntimeError → String
  | typeMismatch use found =>
    "type mismatch in " ++ use.name ++ ": expected " ++ use.needs ++ ", found " ++ describe found
  | unbound name => "unbound identifier '" ++ name ++ "'"
  | divisionByZero => "division by zero"
  | notCallable found => "cannot call a value of type " ++ describe found
  | arityMismatch expected found =>
    "function expects " ++ expected.repr ++ " argument(s), got " ++ found.repr

end ScopeScript
