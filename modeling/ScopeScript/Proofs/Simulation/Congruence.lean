import ScopeScript.Proofs.Evaluation.Depth
import ScopeScript.Proofs.Simulation.Matched
import ScopeScript.Proofs.Simulation.Rewriting

namespace ScopeScript

/-- Calls of corresponding closures with corresponding arguments match. -/
def Caller.Matches (code : Block → Block → Prop) (call : Caller) : Prop :=
  ∀ world left right, Closure.Matches code world left right → ∀ values others,
    List.Forall₂ (Value.Matches code world) values others →
      Matched code world (Optional code) (call left values) (call right others)

/-- The statements match wherever the names of the left one are seen. -/
def Stmt.Matches (code : Block → Block → Prop) (call : Caller) (left right : Stmt) : Prop :=
  ∀ world, World.Shows world left.names →
    Matched code world (Optional code) (left.exec call) (right.exec call)

/-- The blocks match wherever the names of the left one are seen and certain other names,
which the right one may use for itself, are not. -/
def Block.Matches (code : Block → Block → Prop) (call : Caller) (site : Site)
    (left right : Block) : Prop :=
  ∃ hidden : String → Prop, (∀ name ∈ left.names, ¬ hidden name) ∧
    ∀ world, World.Shows world left.names →
      (∀ name, hidden name → ¬ world.sees world.current name) →
        Matched code world (Optional code) (site.run (Stmt.execAll call none left))
          (site.run (Stmt.execAll call none right))

/-- A step leads from blocks whose statements match to blocks that match. -/
def Rewriting.Sound (step : Rewriting) : Prop :=
  ∀ call, Caller.Matches (Block.Rewritten step .body) call →
    ∀ site old inner new, step site old inner new →
      List.Forall₂ (Stmt.Matches (Block.Rewritten step .body) call) old inner →
        Block.Matches (Block.Rewritten step .body) call site old new

theorem Rewriting.never_sound : Rewriting.never.Sound :=
  fun _ _ _ _ _ _ impossible _ => impossible.elim

open Evaluation

variable {code : Block → Block → Prop} {call : Caller}

/-- Lists of statements match if their statements do one by one. The world grows from each to the
next, and the names are still seen in it. -/
theorem Stmt.execAll_matched {left right : Block}
    (stmts : List.Forall₂ (Stmt.Matches code call) left right) {world : World}
    (shown : world.Shows left.names) {last other : Option Value}
    (alike : Optional code world last other) :
    Matched code world (Optional code) (Stmt.execAll call last left)
      (Stmt.execAll call other right) := by
  induction stmts generalizing world last other with
  | nil =>
    unfold Stmt.execAll
    exact .pure alike
  | cons first more ih =>
    unfold Stmt.execAll
    refine (first world shown.left).bind fun later grown a b results => ?_
    exact ih (grown.shows shown.right) results

/-- Where a return is stopped at the end of a body, it is stopped on both sides. -/
theorem Matched.site {world : World} {left right : Evaluation (Option Value)} (site : Site)
    (statements : Matched code world (Optional code) left right) :
    Matched code world (Optional code) (site.run left) (site.run right) := by
  cases site with
  | program => exact statements
  | branch => exact statements
  | body => exact statements.untilReturn

/-- Blocks whose statements match hide no name. -/
theorem Block.Matches.of_stmts {left right : Block} (site : Site)
    (stmts : List.Forall₂ (Stmt.Matches code call) left right) :
    Block.Matches code call site left right :=
  ⟨fun _ => False, fun _ _ hidden => hidden, fun _ shown _ =>
    (Stmt.execAll_matched stmts shown .none).site site⟩

/-- In a scope opened for them, blocks that match find the names they need hidden. -/
theorem Block.Matches.opened {site : Site} {left right : Block} {world : World} {outer : Nat}
    (blocks : Block.Matches code call site left right) (bound : outer < world.size)
    (shown : ∀ name ∈ left.names, world.sees outer name) (names : List String)
    {values others : List Value}
    (alike : List.Forall₂ (Value.Matches code world) values others) :
    Matched code world (Optional code)
      (openScope outer names values >>= fun scope =>
        within scope (site.run (Stmt.execAll call none left)))
      (openScope (world.image outer) names others >>= fun scope =>
        within scope (site.run (Stmt.execAll call none right))) := by
  obtain ⟨hidden, apart, matched⟩ := blocks
  let seen : String → Prop := fun name => world.sees outer name ∧ ¬ hidden name
  have narrower : ∀ name, seen name → world.sees outer name := fun name sees => sees.1
  refine .opened bound narrower names alike fun fresh above => matched _ ?_ ?_
  · intro name member
    simp only [World.opened, if_true]
    exact ⟨shown name member, apart name member⟩
  · intro name hides sees
    simp only [World.opened, if_true] at sees
    exact sees.2 hides

theorem Block.Matches.nested {left right : Block} {world : World}
    (blocks : Block.Matches code call .branch left right) (shown : world.Shows left.names) :
    Matched code world (Optional code) (nested (Stmt.execAll call none left))
      (nested (Stmt.execAll call none right)) := by
  intro before other same
  have matched := blocks.opened world.inside shown [] .nil before other same
  rw [← same.currentImage, ← same.current] at matched
  exact matched

/-- It makes no difference whether the return is stopped before the scope is left or behind it. -/
theorem Evaluation.within_untilReturn (scope : Nat) (body : Evaluation (Option Value)) :
    untilReturn (within scope body) = within scope (untilReturn body) := by
  funext machine
  change (untilReturn (within scope body)).perform machine =
    (within scope (untilReturn body)).perform machine
  rw [perform_untilReturn, perform_within, perform_within, perform_untilReturn]
  generalize body.perform { machine with current := scope } = ran
  obtain ⟨ending, after⟩ := ran
  cases ending with
  | ok value => rfl
  | error interrupt => cases interrupt <;> rfl

section Congruence

variable {step : Rewriting}

mutual

/-- Rewritten expressions match, whatever the blocks in them were rewritten to. -/
theorem Expr.Rewritten.matched (sound : step.Sound)
    (calls : Caller.Matches (Block.Rewritten step .body) call) {expr new : Expr} :
    Expr.Rewritten step expr new → ∀ world, World.Shows world expr.names →
      Matched (Block.Rewritten step .body) world (Optional (Block.Rewritten step .body))
        (expr.eval call) (new.eval call)
  | .name name => by
    intro world shown
    unfold Expr.eval
    have seen : world.sees world.current name := shown name (List.mem_singleton.mpr rfl)
    exact (Matched.lookup seen).bind fun later grown a b values => .pure (.some values)
  | .integer value => by
    intro world shown
    unfold Expr.eval
    exact .pure (.some (.integer value))
  | .boolean value => by
    intro world shown
    unfold Expr.eval
    exact .pure (.some (.boolean value))
  | .binary op left right => by
    intro world shown
    unfold Expr.eval
    unfold Expr.names at shown
    refine (left.matched sound calls world shown.left).bind fun w₁ grown₁ a₁ b₁ first => ?_
    refine (Matched.integer _ first).bind fun w₂ grown₂ a₂ b₂ operand => ?_
    subst operand
    have grown := grown₁.trans grown₂
    refine (right.matched sound calls w₂ (grown.shows shown.right)).bind
      fun w₃ grown₃ a₃ b₃ second => ?_
    refine (Matched.integer _ second).bind fun w₄ grown₄ a₄ b₄ operand => ?_
    subst operand
    split
    · rename_i value result
      exact .pure (.some (.of_ne_function (Operator.apply_ne_function result)))
    · exact .fail _
  | .ifThen condition consequence => by
    intro world shown
    unfold Expr.eval
    unfold Expr.names at shown
    refine (condition.matched sound calls world shown.left).bind fun w₁ grown₁ a₁ b₁ value => ?_
    refine (Matched.boolean _ value).bind fun w₂ grown₂ a₂ b₂ holds => ?_
    subst holds
    have grown := grown₁.trans grown₂
    split
    · exact (consequence.matched sound calls).nested (grown.shows shown.right)
    · exact .pure .none
  | .ifElse condition consequence alternative => by
    intro world shown
    unfold Expr.eval
    unfold Expr.names at shown
    refine (condition.matched sound calls world shown.left.left).bind
      fun w₁ grown₁ a₁ b₁ value => ?_
    refine (Matched.boolean _ value).bind fun w₂ grown₂ a₂ b₂ holds => ?_
    subst holds
    have grown := grown₁.trans grown₂
    split
    · exact (consequence.matched sound calls).nested (grown.shows shown.left.right)
    · exact (alternative.matched sound calls).nested (grown.shows shown.right)
  | .function parameters body => by
    intro world shown
    unfold Expr.eval
    unfold Expr.names at shown
    exact (Matched.capture parameters body shown.right).bind
      fun later grown a b values => .pure (.some values)
  | .call callee arguments => by
    intro world shown
    unfold Expr.eval
    unfold Expr.names at shown
    refine (callee.matched sound calls world shown.left).bind fun w₁ grown₁ a₁ b₁ value => ?_
    refine (Matched.callable value).bind fun w₂ grown₂ a₂ b₂ closures => ?_
    have grown := grown₁.trans grown₂
    rw [← closures.parameters, ← arguments.length_eq]
    split
    · refine (arguments.matched sound calls w₂ (grown.shows shown.right)).bind
        fun w₃ grown₃ a₃ b₃ values => ?_
      exact calls w₃ a₂ b₂ (closures.mono grown₃.toExtends) a₃ b₃ values
    · exact .fail _

theorem Expr.AllRewritten.matched (sound : step.Sound)
    (calls : Caller.Matches (Block.Rewritten step .body) call) {exprs new : List Expr} :
    Expr.AllRewritten step exprs new → ∀ world, World.Shows world (Expr.namesAll exprs) →
      Matched (Block.Rewritten step .body) world
        (fun later => List.Forall₂ (Value.Matches (Block.Rewritten step .body) later))
        (Expr.evalAll call exprs) (Expr.evalAll call new)
  | .nil => by
    intro world shown
    unfold Expr.evalAll
    exact .pure .nil
  | .cons argument more => by
    intro world shown
    unfold Expr.evalAll
    unfold Expr.namesAll at shown
    refine (argument.matched sound calls world shown.left).bind fun w₁ grown₁ a₁ b₁ first => ?_
    refine (Matched.present _ first).bind fun w₂ grown₂ a₂ b₂ value => ?_
    have grown := grown₁.trans grown₂
    refine (more.matched sound calls w₂ (grown.shows shown.right)).bind
      fun w₃ grown₃ a₃ b₃ values => ?_
    exact .pure (.cons (value.extend grown₃.toExtends) values)

theorem Stmt.Rewritten.matched (sound : step.Sound)
    (calls : Caller.Matches (Block.Rewritten step .body) call) {stmt new : Stmt} :
    Stmt.Rewritten step stmt new → Stmt.Matches (Block.Rewritten step .body) call stmt new
  | .var name value => by
    intro world shown
    unfold Stmt.exec
    unfold Stmt.names at shown
    have inside : world.Shows _ := fun y member => shown y (List.mem_cons_of_mem name member)
    refine (value.matched sound calls world inside).bind fun w₁ grown₁ a₁ b₁ first => ?_
    refine (Matched.present _ first).bind fun w₂ grown₂ a₂ b₂ bound => ?_
    refine (Matched.define name bound).bind fun w₃ grown₃ _ _ _ => ?_
    exact .pure (.some (bound.extend grown₃.toExtends))
  | .function name parameters body => by
    intro world shown
    unfold Stmt.exec
    unfold Stmt.names at shown
    have inside : world.Shows _ := fun y member =>
      shown y (List.mem_cons_of_mem name (List.mem_append_right parameters member))
    refine (Matched.capture parameters body inside).bind fun w₁ grown₁ a₁ b₁ bound => ?_
    refine (Matched.define name bound).bind fun w₂ grown₂ _ _ _ => ?_
    exact .pure (.some (bound.extend grown₂.toExtends))
  | .returns value => by
    intro world shown
    unfold Stmt.exec
    exact (value.matched sound calls world shown).bind fun w₁ grown₁ a₁ b₁ values =>
      .throw (.returned values)
  | .exits code => by
    intro world shown
    unfold Stmt.exec
    refine (code.matched sound calls world shown).bind fun w₁ grown₁ a₁ b₁ value => ?_
    refine (Matched.integer _ value).bind fun w₂ grown₂ a₂ b₂ number => ?_
    subst number
    exact .throw (.exited a₂)
  | .expression value => by
    intro world shown
    unfold Stmt.exec
    exact value.matched sound calls world shown

theorem Stmt.AllRewritten.matched (sound : step.Sound)
    (calls : Caller.Matches (Block.Rewritten step .body) call) {stmts new : List Stmt} :
    Stmt.AllRewritten step stmts new →
      List.Forall₂ (Stmt.Matches (Block.Rewritten step .body) call) stmts new
  | .nil => .nil
  | .cons stmt more => .cons (stmt.matched sound calls) (more.matched sound calls)

theorem Block.Rewritten.matched (sound : step.Sound)
    (calls : Caller.Matches (Block.Rewritten step .body) call) {site : Site} {block new : Block} :
    Block.Rewritten step site block new →
      Block.Matches (Block.Rewritten step .body) call site block new
  | .inside stmts => .of_stmts site (stmts.matched sound calls)
  | .stepped stmts stepped => sound call calls site _ _ _ stepped (stmts.matched sound calls)

end

/-- Calls match at every depth: at each, for the bodies match where calls match that are
one less deep. -/
theorem Rewriting.Sound.calls (sound : step.Sound) (depth : Nat) :
    Caller.Matches (Block.Rewritten step .body) (invoke depth) := by
  induction depth with
  | zero => exact fun world left right closures values others alike => .throw .tooDeep
  | succ depth calls =>
    intro world left right closures values others alike
    have bodies := closures.body.matched sound calls
    unfold invoke
    simp only [within_untilReturn]
    rw [closures.scope, ← closures.parameters]
    exact bodies.opened closures.inside closures.shown left.parameters alike

end Congruence

/-- The world of two new machines, where the global scope sees what it is said to. -/
def World.start (seen : String → Prop) : World where
  size := 1
  image i := i
  sees _ := seen
  current := 0
  inside := Nat.one_pos
  rising lower _ := lower

/-- New machines match whatever is said to be seen, since nothing is bound in them. -/
theorem Machine.start_matches (seen : String → Prop) :
    Machine.Matches code (World.start seen) Machine.start Machine.start := by
  refine ⟨⟨rfl, ?_⟩, rfl, rfl⟩
  intro i bound
  obtain rfl : i = 0 := Nat.lt_one_iff.mp bound
  exact ⟨⟨none, []⟩, ⟨none, []⟩, rfl, rfl, Or.inl ⟨rfl, rfl⟩, fun _ _ => .none⟩

/-- A program and what it was rewritten to have outcomes that are alike, run at any depth
in new machines. -/
theorem Rewriting.Sound.interpret_start {step : Rewriting} (sound : step.Sound) (depth : Nat)
    {program new : Block} (rewritten : Block.Rewritten step .program program new) :
    ∃ world, (Machine.start.interpret depth program).1.Alike
      (Closure.Matches (Block.Rewritten step .body) world) (Machine.start.interpret depth new).1 := by
  obtain ⟨hidden, apart, matched⟩ := rewritten.matched sound (sound.calls depth)
  obtain ⟨later, _, _, ends⟩ := matched (World.start fun name => ¬ hidden name) apart
    (fun name hides seen => seen hides) _ _ (Machine.start_matches _)
  exact ⟨later, Outcome.ofEnding_alike ends⟩

/-- One program ends at some depth exactly if the other does, since at every depth their outcomes
are alike. -/
theorem Rewriting.Sound.sameOutcome {step : Rewriting} (sound : step.Sound) {program new : Block}
    (rewritten : Block.Rewritten step .program program new) : program.SameOutcome new := by
  have alike : ∀ depth, (Machine.start.interpret depth program).1.Alike Closure.SameParameters
      (Machine.start.interpret depth new).1 := by
    intro depth
    obtain ⟨world, outcomes⟩ := sound.interpret_start depth rewritten
    exact outcomes.mono fun f g closures => closures.parameters
  exact ⟨alike, Machine.ends_iff_of_alike fun depth (_ : 0 ≤ depth) => alike depth⟩

end ScopeScript
