import ScopeScript.Program.Basic

namespace ScopeScript

mutual

/-- Every name in the text of an expression, parameters included. -/
def Expr.names : Expr → List String
  | .name name => [name]
  | .integer _ => []
  | .boolean _ => []
  | .binary _ left right => left.names ++ right.names
  | .ifThen condition consequence => condition.names ++ Stmt.namesAll consequence
  | .ifElse condition consequence alternative =>
    condition.names ++ Stmt.namesAll consequence ++ Stmt.namesAll alternative
  | .function parameters body => parameters ++ Stmt.namesAll body
  | .call callee arguments => callee.names ++ Expr.namesAll arguments

def Expr.namesAll : List Expr → List String
  | [] => []
  | argument :: more => argument.names ++ Expr.namesAll more

def Stmt.names : Stmt → List String
  | .var name value => name :: value.names
  | .function name parameters body => name :: (parameters ++ Stmt.namesAll body)
  | .returns value => value.names
  | .exits code => code.names
  | .expression value => value.names

def Stmt.namesAll : List Stmt → List String
  | [] => []
  | stmt :: more => stmt.names ++ Stmt.namesAll more

end

/-- Every name in the text of a block. -/
def Block.names (block : Block) : List String := Stmt.namesAll block

/-- Names are gathered in the order of the text. -/
theorem Block.names_append (first more : Block) :
    Block.names (first ++ more) = first.names ++ more.names := by
  unfold Block.names
  induction first with
  | nil => rfl
  | cons stmt rest ih => simp only [List.cons_append, Stmt.namesAll, ih, List.append_assoc]

end ScopeScript
