import ScopeScript.Program.Basic

namespace ScopeScript

/-- How tightly an expression holds together. Only a binary operation can be torn
apart by an operator or a call next to it. -/
def Expr.level : Expr → Nat
  | .binary op _ _ => op.level
  | _ => Operator.negationLevel

/-- Expressions that end a statement they begin. -/
def Expr.isIf : Expr → Bool
  | .ifThen _ _ => true
  | .ifElse _ _ _ => true
  | _ => false

def enclosed (words : List String) : List String :=
  "(" :: words ++ [")"]

def braced (words : List String) : List String :=
  "\x7b" :: words ++ ["\x7d"]

/-- Words of an expression that holds together at `level`, for a place that tears
apart everything below `bound`. -/
def guarded (level bound : Nat) (words : List String) : List String :=
  if level < bound then enclosed words else words

/-- Words of an expression, enclosed where the expression leads a larger one. -/
def led (leads : Bool) (words : List String) : List String :=
  if leads then enclosed words else words

/-- Groups of words with commas between them. -/
def separated : List (List String) → List String
  | [] => []
  | [words] => words
  | words :: more => words ++ "," :: separated more

mutual

/-- The words of an expression, with the fewest parentheses that keep operands and
callees together. Where it leads an expression statement larger than itself, an
`if` is enclosed, for a statement that starts with `if` ends with it. -/
def Expr.words (leads : Bool) : Expr → List String
  | .name name => [name]
  | .integer value => [value.toInt.repr]
  | .boolean true => ["true"]
  | .boolean false => ["false"]
  | .binary op left right =>
    guarded left.level op.level (left.words leads) ++
      op.symbol :: guarded right.level (op.level + 1) (right.words false)
  | .ifThen condition consequence =>
    led leads ("if" :: enclosed (condition.words false) ++ braced (Stmt.allWords consequence))
  | .ifElse condition consequence alternative =>
    led leads ("if" :: enclosed (condition.words false) ++ braced (Stmt.allWords consequence) ++
      "else" :: braced (Stmt.allWords alternative))
  | .function parameters body =>
    "gorlami" :: enclosed (separated (parameters.map fun name => [name])) ++
      braced (Stmt.allWords body)
  | .call callee arguments =>
    guarded callee.level Operator.negationLevel (callee.words leads) ++
      enclosed (separated (Expr.argumentWords arguments))

/-- The words of each argument of a call. -/
def Expr.argumentWords : List Expr → List (List String)
  | [] => []
  | argument :: more => argument.words false :: Expr.argumentWords more

/-- The words of a statement without its semicolon. -/
def Stmt.words : Stmt → List String
  | .var name value => "var" :: name :: "=" :: value.words false
  | .function name parameters body =>
    "gorlami" :: name :: enclosed (separated (parameters.map fun name => [name])) ++
      braced (Stmt.allWords body)
  | .returns value => "dicocco" :: value.words false
  | .exits code => "exit" :: code.words false
  | .expression value => value.words (!value.isIf)

/-- The words of statements, a semicolon behind each. -/
def Stmt.allWords : List Stmt → List String
  | [] => []
  | stmt :: more => stmt.words ++ ";" :: Stmt.allWords more

end

/-- A text that reads as the program, provided that its names are words and no
keywords and that no integer in it is negative. -/
def Block.source (program : Block) : String :=
  " ".intercalate (Stmt.allWords program)

end ScopeScript
