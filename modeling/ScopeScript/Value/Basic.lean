import ScopeScript.Program.Basic

namespace ScopeScript

/-- A function together with the scope in which its text was met. No two closures
that were made one by one have the same `id`. -/
structure Closure where
  id : Nat
  parameters : List String
  body : Block
  scope : Nat

/-- What names are bound to and what expressions may yield. -/
inductive Value
  | integer (value : Int64)
  | boolean (value : Bool)
  | function (closure : Closure)

inductive ValueKind
  | integer
  | boolean
  | function
  deriving DecidableEq, Repr

def ValueKind.name : ValueKind → String
  | integer => "integer"
  | boolean => "boolean"
  | function => "function"

namespace Value

def kind : Value → ValueKind
  | integer _ => .integer
  | boolean _ => .boolean
  | function _ => .function

/-- Functions are told apart by their identity and not by their text. -/
def same : Value → Value → Bool
  | integer left, integer right => left == right
  | boolean left, boolean right => left == right
  | function left, function right => left.id == right.id
  | _, _ => false

instance : BEq Value := ⟨same⟩

def display : Value → String
  | integer value => value.toInt.repr
  | boolean true => "true"
  | boolean false => "false"
  | function closure => "<gorlami(" ++ ", ".intercalate closure.parameters ++ ")>"

/-- The form that shows how a value is built. The body and the scope of a function
are left out, for a scope may hold the function itself. -/
def detail : Value → String
  | integer value => "Integer(" ++ value.toInt.repr ++ ")"
  | boolean true => "Boolean(true)"
  | boolean false => "Boolean(false)"
  | function closure =>
    "Function(Closure \x7b parameters: [" ++
      ", ".intercalate (closure.parameters.map fun name =>
        "Identifier \x7b name: \"" ++ name ++ "\" \x7d") ++
      "], .. \x7d)"

end Value

end ScopeScript
