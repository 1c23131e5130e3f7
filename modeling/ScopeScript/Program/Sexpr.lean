import ScopeScript.Program.Basic

namespace ScopeScript

/-- Atoms grouped by parentheses. -/
inductive Sexpr
  | atom (text : String)
  | list (items : List Sexpr)

mutual

/-- The text of a tree: the items of a list are one blank apart. -/
def Sexpr.render : Sexpr → String
  | .atom text => text
  | .list [] => "()"
  | .list (item :: more) => "(" ++ item.render ++ Sexpr.renderMore more ++ ")"

/-- The items behind the first one, a blank before each. -/
def Sexpr.renderMore : List Sexpr → String
  | [] => ""
  | item :: more => " " ++ item.render ++ Sexpr.renderMore more

end

/-- A list of names, such as the parameters of a function. -/
def Sexpr.names (names : List String) : Sexpr :=
  .list (names.map .atom)

mutual

/-- The shape of an expression. -/
def Expr.toSexpr : Expr → Sexpr
  | .name name => .atom name
  | .integer value => .atom value.toInt.repr
  | .boolean true => .atom "true"
  | .boolean false => .atom "false"
  | .binary op left right => .list [.atom op.symbol, left.toSexpr, right.toSexpr]
  | .ifThen condition consequence =>
    .list [.atom "if", condition.toSexpr, .list (.atom "block" :: Stmt.toSexprs consequence)]
  | .ifElse condition consequence alternative =>
    .list [.atom "if", condition.toSexpr, .list (.atom "block" :: Stmt.toSexprs consequence),
      .list (.atom "block" :: Stmt.toSexprs alternative)]
  | .function parameters body =>
    .list [.atom "gorlami", .names parameters, .list (.atom "block" :: Stmt.toSexprs body)]
  | .call callee arguments => .list (.atom "call" :: callee.toSexpr :: Expr.toSexprs arguments)

/-- The shapes of the arguments of a call. -/
def Expr.toSexprs : List Expr → List Sexpr
  | [] => []
  | value :: more => value.toSexpr :: Expr.toSexprs more

/-- The shape of a statement. An expression has no mark of being a statement. -/
def Stmt.toSexpr : Stmt → Sexpr
  | .var name value => .list [.atom "var", .atom name, value.toSexpr]
  | .function name parameters body =>
    .list [.atom "gorlami", .atom name, .names parameters,
      .list (.atom "block" :: Stmt.toSexprs body)]
  | .returns value => .list [.atom "return", value.toSexpr]
  | .exits code => .list [.atom "exit", code.toSexpr]
  | .expression value => value.toSexpr

/-- The shapes of the statements of a block. -/
def Stmt.toSexprs : List Stmt → List Sexpr
  | [] => []
  | stmt :: more => stmt.toSexpr :: Stmt.toSexprs more

end

/-- The listing of a program: a line for each of its statements, and no line
feed behind the last. -/
def Block.listing (program : Block) : String :=
  "\n".intercalate (program.map fun stmt => stmt.toSexpr.render)

end ScopeScript
