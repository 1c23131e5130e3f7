import ScopeScript.Proofs.Simulation.Congruence

namespace ScopeScript

/-- A change of blocks, which may depend on where they stand. -/
abbrev Edit := Site → Block → Block

mutual

/-- The expression with every block in it edited, the inner blocks first. -/
def Expr.edited (edit : Edit) : Expr → Expr
  | .name name => .name name
  | .integer value => .integer value
  | .boolean value => .boolean value
  | .binary op left right => .binary op (left.edited edit) (right.edited edit)
  | .ifThen condition consequence =>
    .ifThen (condition.edited edit) (edit .branch (Stmt.editedAll edit consequence))
  | .ifElse condition consequence alternative =>
    .ifElse (condition.edited edit) (edit .branch (Stmt.editedAll edit consequence))
      (edit .branch (Stmt.editedAll edit alternative))
  | .function parameters body => .function parameters (edit .body (Stmt.editedAll edit body))
  | .call callee arguments => .call (callee.edited edit) (Expr.editedAll edit arguments)

def Expr.editedAll (edit : Edit) : List Expr → List Expr
  | [] => []
  | argument :: more => argument.edited edit :: Expr.editedAll edit more

def Stmt.edited (edit : Edit) : Stmt → Stmt
  | .var name value => .var name (value.edited edit)
  | .function name parameters body =>
    .function name parameters (edit .body (Stmt.editedAll edit body))
  | .returns value => .returns (value.edited edit)
  | .exits code => .exits (code.edited edit)
  | .expression value => .expression (value.edited edit)

def Stmt.editedAll (edit : Edit) : List Stmt → List Stmt
  | [] => []
  | stmt :: more => stmt.edited edit :: Stmt.editedAll edit more

end

/-- The program with every block edited: the blocks at any depth, then the program itself. -/
def Block.edited (edit : Edit) (program : Block) : Block :=
  edit .program (Stmt.editedAll edit program)

/-- An edit as a way to rewrite blocks. -/
def Edit.rewriting (edit : Edit) : Rewriting := fun site _ inner new => new = edit site inner

section Rewriting

variable (edit : Edit)

mutual

theorem Expr.rewritten_edited : (expr : Expr) → Expr.Rewritten edit.rewriting expr (expr.edited edit)
  | .name name => .name name
  | .integer value => .integer value
  | .boolean value => .boolean value
  | .binary op left right => .binary op left.rewritten_edited right.rewritten_edited
  | .ifThen condition consequence =>
    .ifThen condition.rewritten_edited (.stepped (Stmt.rewritten_editedAll consequence) rfl)
  | .ifElse condition consequence alternative =>
    .ifElse condition.rewritten_edited (.stepped (Stmt.rewritten_editedAll consequence) rfl)
      (.stepped (Stmt.rewritten_editedAll alternative) rfl)
  | .function parameters body =>
    .function parameters (.stepped (Stmt.rewritten_editedAll body) rfl)
  | .call callee arguments => .call callee.rewritten_edited (Expr.rewritten_editedAll arguments)

theorem Expr.rewritten_editedAll :
    (exprs : List Expr) → Expr.AllRewritten edit.rewriting exprs (Expr.editedAll edit exprs)
  | [] => .nil
  | argument :: more => .cons argument.rewritten_edited (Expr.rewritten_editedAll more)

theorem Stmt.rewritten_edited : (stmt : Stmt) → Stmt.Rewritten edit.rewriting stmt (stmt.edited edit)
  | .var name value => .var name value.rewritten_edited
  | .function name parameters body =>
    .function name parameters (.stepped (Stmt.rewritten_editedAll body) rfl)
  | .returns value => .returns value.rewritten_edited
  | .exits code => .exits code.rewritten_edited
  | .expression value => .expression value.rewritten_edited

theorem Stmt.rewritten_editedAll :
    (stmts : List Stmt) → Stmt.AllRewritten edit.rewriting stmts (Stmt.editedAll edit stmts)
  | [] => .nil
  | stmt :: more => .cons stmt.rewritten_edited (Stmt.rewritten_editedAll more)

end

/-- An edit of all blocks is a rewriting that takes its step at each of them. -/
theorem Block.rewritten_edited (program : Block) :
    Block.Rewritten edit.rewriting .program program (program.edited edit) :=
  .stepped (Stmt.rewritten_editedAll edit program) rfl

end Rewriting

mutual

/-- Every block in the expression has the property. -/
def Expr.Everywhere (holds : Site → Block → Prop) : Expr → Prop
  | .name _ => True
  | .integer _ => True
  | .boolean _ => True
  | .binary _ left right => left.Everywhere holds ∧ right.Everywhere holds
  | .ifThen condition consequence =>
    condition.Everywhere holds ∧ holds .branch consequence ∧ Stmt.EverywhereAll holds consequence
  | .ifElse condition consequence alternative =>
    condition.Everywhere holds ∧ (holds .branch consequence ∧ Stmt.EverywhereAll holds consequence) ∧
      holds .branch alternative ∧ Stmt.EverywhereAll holds alternative
  | .function _ body => holds .body body ∧ Stmt.EverywhereAll holds body
  | .call callee arguments => callee.Everywhere holds ∧ Expr.EverywhereAll holds arguments

def Expr.EverywhereAll (holds : Site → Block → Prop) : List Expr → Prop
  | [] => True
  | argument :: more => argument.Everywhere holds ∧ Expr.EverywhereAll holds more

def Stmt.Everywhere (holds : Site → Block → Prop) : Stmt → Prop
  | .var _ value => value.Everywhere holds
  | .function _ _ body => holds .body body ∧ Stmt.EverywhereAll holds body
  | .returns value => value.Everywhere holds
  | .exits code => code.Everywhere holds
  | .expression value => value.Everywhere holds

def Stmt.EverywhereAll (holds : Site → Block → Prop) : List Stmt → Prop
  | [] => True
  | stmt :: more => stmt.Everywhere holds ∧ Stmt.EverywhereAll holds more

end

/-- The program and every block in it have the property. -/
def Block.Everywhere (holds : Site → Block → Prop) (program : Block) : Prop :=
  holds .program program ∧ Stmt.EverywhereAll holds program

/-- What holds in each statement of a list holds everywhere in the list. -/
theorem Stmt.everywhereAll_iff {holds : Site → Block → Prop} {stmts : List Stmt} :
    Stmt.EverywhereAll holds stmts ↔ ∀ stmt ∈ stmts, stmt.Everywhere holds := by
  induction stmts with
  | nil => simp [Stmt.EverywhereAll]
  | cons stmt more ih => simp [Stmt.EverywhereAll, ih]

/-- What is edited has the property, and the blocks inside it still have it. -/
structure Edit.Attains (edit : Edit) (holds : Site → Block → Prop) : Prop where
  edited : ∀ site block, holds site (edit site block)
  inside : ∀ site block, (∀ stmt ∈ block, stmt.Everywhere holds) →
    ∀ stmt ∈ edit site block, stmt.Everywhere holds

section Everywhere

variable {edit : Edit} {holds : Site → Block → Prop}

/-- An edited block has the property itself, and the blocks inside of it keep theirs. -/
theorem Edit.Attains.block (attains : edit.Attains holds) (site : Site) {block : Block}
    (inside : Stmt.EverywhereAll holds block) :
    holds site (edit site block) ∧ Stmt.EverywhereAll holds (edit site block) := by
  rw [Stmt.everywhereAll_iff] at inside ⊢
  exact ⟨attains.edited site block, attains.inside site block inside⟩

mutual

theorem Expr.everywhere_edited (attains : edit.Attains holds) :
    (expr : Expr) → (expr.edited edit).Everywhere holds
  | .name _ => trivial
  | .integer _ => trivial
  | .boolean _ => trivial
  | .binary _ left right => ⟨left.everywhere_edited attains, right.everywhere_edited attains⟩
  | .ifThen condition consequence =>
    ⟨condition.everywhere_edited attains,
      attains.block .branch (Stmt.everywhere_editedAll attains consequence)⟩
  | .ifElse condition consequence alternative =>
    ⟨condition.everywhere_edited attains,
      attains.block .branch (Stmt.everywhere_editedAll attains consequence),
      attains.block .branch (Stmt.everywhere_editedAll attains alternative)⟩
  | .function _ body => attains.block .body (Stmt.everywhere_editedAll attains body)
  | .call callee arguments =>
    ⟨callee.everywhere_edited attains, Expr.everywhere_editedAll attains arguments⟩

theorem Expr.everywhere_editedAll (attains : edit.Attains holds) :
    (exprs : List Expr) → Expr.EverywhereAll holds (Expr.editedAll edit exprs)
  | [] => trivial
  | argument :: more =>
    ⟨argument.everywhere_edited attains, Expr.everywhere_editedAll attains more⟩

theorem Stmt.everywhere_edited (attains : edit.Attains holds) :
    (stmt : Stmt) → (stmt.edited edit).Everywhere holds
  | .var _ value => value.everywhere_edited attains
  | .function _ _ body => attains.block .body (Stmt.everywhere_editedAll attains body)
  | .returns value => value.everywhere_edited attains
  | .exits code => code.everywhere_edited attains
  | .expression value => value.everywhere_edited attains

theorem Stmt.everywhere_editedAll (attains : edit.Attains holds) :
    (stmts : List Stmt) → Stmt.EverywhereAll holds (Stmt.editedAll edit stmts)
  | [] => trivial
  | stmt :: more => ⟨stmt.everywhere_edited attains, Stmt.everywhere_editedAll attains more⟩

end

/-- No block is missed by an edit. -/
theorem Block.everywhere_edited (attains : edit.Attains holds) (program : Block) :
    (program.edited edit).Everywhere holds :=
  attains.block .program (Stmt.everywhere_editedAll attains program)

end Everywhere

/-- To its surroundings an edited block is what it was. -/
def Edit.Unnoticed (edit : Edit) : Prop :=
  ∀ (call : Caller) (site : Site) (block : Block),
    site.run (Stmt.execAll call none (edit site block)) = site.run (Stmt.execAll call none block)

/-- The blocks match as their statements do, before and after the edit. -/
theorem Edit.Unnoticed.sound {edit : Edit} (unnoticed : edit.Unnoticed) : edit.rewriting.Sound := by
  rintro call calls site old inner new rfl stmts
  obtain ⟨hidden, apart, matched⟩ := Block.Matches.of_stmts site stmts
  refine ⟨hidden, apart, fun world shown unseen => ?_⟩
  rw [unnoticed]
  exact matched world shown unseen

/-- Edits that go unnoticed block by block do so together, though closures carry edited bodies
from one block to another. -/
theorem Edit.Unnoticed.sameOutcome {edit : Edit} (unnoticed : edit.Unnoticed) (program : Block) :
    program.SameOutcome (program.edited edit) :=
  unnoticed.sound.sameOutcome (Block.rewritten_edited edit program)

end ScopeScript
