import ScopeScript.Evaluation.Basic

namespace ScopeScript

/-- Where a list of statements stands. -/
inductive Site
  | program
  | branch
  | body
  deriving DecidableEq

/-- What the surroundings make of the ending of a list of statements. -/
def Site.run : Site → Evaluation (Option Value) → Evaluation (Option Value)
  | .body, statements => Evaluation.untilReturn statements
  | _, statements => statements

/-- A way to rewrite blocks: at a site the block `old`, the statements of which have
become `inner` already, may become `new`. -/
abbrev Rewriting := (site : Site) → (old inner new : Block) → Prop

mutual

/-- The same expression with some of the blocks in it rewritten. -/
inductive Expr.Rewritten (step : Rewriting) : Expr → Expr → Prop
  | name (name : String) : Expr.Rewritten step (.name name) (.name name)
  | integer (value : Int64) : Expr.Rewritten step (.integer value) (.integer value)
  | boolean (value : Bool) : Expr.Rewritten step (.boolean value) (.boolean value)
  | binary (op : Operator) {left right newLeft newRight : Expr} :
    Expr.Rewritten step left newLeft → Expr.Rewritten step right newRight →
      Expr.Rewritten step (.binary op left right) (.binary op newLeft newRight)
  | ifThen {condition newCondition : Expr} {consequence newConsequence : Block} :
    Expr.Rewritten step condition newCondition →
      Block.Rewritten step .branch consequence newConsequence →
        Expr.Rewritten step (.ifThen condition consequence) (.ifThen newCondition newConsequence)
  | ifElse {condition newCondition : Expr}
      {consequence newConsequence alternative newAlternative : Block} :
    Expr.Rewritten step condition newCondition →
      Block.Rewritten step .branch consequence newConsequence →
        Block.Rewritten step .branch alternative newAlternative →
          Expr.Rewritten step (.ifElse condition consequence alternative)
            (.ifElse newCondition newConsequence newAlternative)
  | function (parameters : List String) {body newBody : Block} :
    Block.Rewritten step .body body newBody →
      Expr.Rewritten step (.function parameters body) (.function parameters newBody)
  | call {callee newCallee : Expr} {arguments newArguments : List Expr} :
    Expr.Rewritten step callee newCallee → Expr.AllRewritten step arguments newArguments →
      Expr.Rewritten step (.call callee arguments) (.call newCallee newArguments)

inductive Expr.AllRewritten (step : Rewriting) : List Expr → List Expr → Prop
  | nil : Expr.AllRewritten step [] []
  | cons {argument newArgument : Expr} {more newMore : List Expr} :
    Expr.Rewritten step argument newArgument → Expr.AllRewritten step more newMore →
      Expr.AllRewritten step (argument :: more) (newArgument :: newMore)

inductive Stmt.Rewritten (step : Rewriting) : Stmt → Stmt → Prop
  | var (name : String) {value newValue : Expr} :
    Expr.Rewritten step value newValue → Stmt.Rewritten step (.var name value) (.var name newValue)
  | function (name : String) (parameters : List String) {body newBody : Block} :
    Block.Rewritten step .body body newBody →
      Stmt.Rewritten step (.function name parameters body) (.function name parameters newBody)
  | returns {value newValue : Expr} :
    Expr.Rewritten step value newValue → Stmt.Rewritten step (.returns value) (.returns newValue)
  | exits {code newCode : Expr} :
    Expr.Rewritten step code newCode → Stmt.Rewritten step (.exits code) (.exits newCode)
  | expression {value newValue : Expr} :
    Expr.Rewritten step value newValue → Stmt.Rewritten step (.expression value) (.expression newValue)

inductive Stmt.AllRewritten (step : Rewriting) : List Stmt → List Stmt → Prop
  | nil : Stmt.AllRewritten step [] []
  | cons {stmt newStmt : Stmt} {more newMore : List Stmt} :
    Stmt.Rewritten step stmt newStmt → Stmt.AllRewritten step more newMore →
      Stmt.AllRewritten step (stmt :: more) (newStmt :: newMore)

/-- A block may be rewritten after the blocks inside it. -/
inductive Block.Rewritten (step : Rewriting) : Site → Block → Block → Prop
  | inside {site : Site} {old inner : Block} :
    Stmt.AllRewritten step old inner → Block.Rewritten step site old inner
  | stepped {site : Site} {old inner new : Block} :
    Stmt.AllRewritten step old inner → step site old inner new → Block.Rewritten step site old new

end

/-- A call counts its arguments, and their number stays. -/
theorem Expr.AllRewritten.length_eq {step : Rewriting} {exprs new : List Expr} :
    Expr.AllRewritten step exprs new → exprs.length = new.length
  | .nil => rfl
  | .cons _ more => congrArg Nat.succ more.length_eq

mutual

/-- Whatever a step does, it need not be taken. -/
theorem Expr.Rewritten.refl (step : Rewriting) : (expr : Expr) → Expr.Rewritten step expr expr
  | .name name => .name name
  | .integer value => .integer value
  | .boolean value => .boolean value
  | .binary op left right => .binary op (.refl step left) (.refl step right)
  | .ifThen condition consequence =>
    .ifThen (.refl step condition) (.inside (.refl step consequence))
  | .ifElse condition consequence alternative =>
    .ifElse (.refl step condition) (.inside (.refl step consequence))
      (.inside (.refl step alternative))
  | .function parameters body => .function parameters (.inside (.refl step body))
  | .call callee arguments => .call (.refl step callee) (.refl step arguments)

theorem Expr.AllRewritten.refl (step : Rewriting) :
    (exprs : List Expr) → Expr.AllRewritten step exprs exprs
  | [] => .nil
  | argument :: more => .cons (.refl step argument) (.refl step more)

theorem Stmt.Rewritten.refl (step : Rewriting) : (stmt : Stmt) → Stmt.Rewritten step stmt stmt
  | .var name value => .var name (.refl step value)
  | .function name parameters body => .function name parameters (.inside (.refl step body))
  | .returns value => .returns (.refl step value)
  | .exits code => .exits (.refl step code)
  | .expression value => .expression (.refl step value)

/-- The statements around a block that is rewritten may stay as they are. -/
theorem Stmt.AllRewritten.refl (step : Rewriting) :
    (stmts : List Stmt) → Stmt.AllRewritten step stmts stmts
  | [] => .nil
  | stmt :: more => .cons (.refl step stmt) (.refl step more)

end

/-- Rewriting nothing. -/
def Rewriting.never : Rewriting := fun _ _ _ _ => False

mutual

/-- With no step to take, what is related is equal. -/
theorem Expr.Rewritten.eq_of_never {expr new : Expr} :
    Expr.Rewritten .never expr new → expr = new
  | .name _ => rfl
  | .integer _ => rfl
  | .boolean _ => rfl
  | .binary _ left right => by rw [left.eq_of_never, right.eq_of_never]
  | .ifThen condition consequence => by rw [condition.eq_of_never, consequence.eq_of_never]
  | .ifElse condition consequence alternative => by
    rw [condition.eq_of_never, consequence.eq_of_never, alternative.eq_of_never]
  | .function _ body => by rw [body.eq_of_never]
  | .call callee arguments => by rw [callee.eq_of_never, arguments.eq_of_never]

theorem Expr.AllRewritten.eq_of_never {exprs new : List Expr} :
    Expr.AllRewritten .never exprs new → exprs = new
  | .nil => rfl
  | .cons argument more => by rw [argument.eq_of_never, more.eq_of_never]

theorem Stmt.Rewritten.eq_of_never {stmt new : Stmt} :
    Stmt.Rewritten .never stmt new → stmt = new
  | .var _ value => by rw [value.eq_of_never]
  | .function _ _ body => by rw [body.eq_of_never]
  | .returns value => by rw [value.eq_of_never]
  | .exits code => by rw [code.eq_of_never]
  | .expression value => by rw [value.eq_of_never]

theorem Stmt.AllRewritten.eq_of_never {stmts new : List Stmt} :
    Stmt.AllRewritten .never stmts new → stmts = new
  | .nil => rfl
  | .cons stmt more => by rw [stmt.eq_of_never, more.eq_of_never]

/-- So closures whose bodies are related have the same body. -/
theorem Block.Rewritten.eq_of_never {site : Site} {block new : Block} :
    Block.Rewritten .never site block new → block = new
  | .inside stmts => stmts.eq_of_never
  | .stepped _ impossible => impossible.elim

end

end ScopeScript
