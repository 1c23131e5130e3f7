import Mathlib
import ScopeScript.Proofs.Editing.Basic
import ScopeScript.Proofs.Evaluation.Sequence
import ScopeScript.Proofs.Simulation.Renumbering

namespace ScopeScript

open Evaluation

/-- The name that a function statement gives its function. -/
def Stmt.declares? : Stmt → Option String
  | .function name _ _ => some name
  | _ => none

theorem Stmt.eq_of_declares {stmt : Stmt} {name : String} (declares : stmt.declares? = some name) :
    ∃ parameters body, stmt = .function name parameters body := by
  cases stmt with
  | function own parameters body => exact ⟨parameters, body, by rw [Option.some.inj declares]⟩
  | var name value => cases declares
  | returns value => cases declares
  | exits code => cases declares
  | expression value => cases declares

/-- A function statement as the binding of a function literal. -/
def Stmt.literal : Stmt → Stmt
  | .function name parameters body => .var name (.function parameters body)
  | stmt => stmt

/-- Binding function literals where function statements stand. -/
def Edit.literals : Edit := fun _ block => block.map Stmt.literal

/-- There is no function statement among the statements. -/
def Block.DeclaresNone (block : Block) : Prop := ∀ stmt ∈ block, stmt.declares? = none

theorem Stmt.declares_literal (stmt : Stmt) : stmt.literal.declares? = none := by
  cases stmt <;> rfl

theorem Edit.literals_attains : Edit.literals.Attains fun _ block => block.DeclaresNone where
  edited _ block := by
    intro stmt member
    obtain ⟨old, _, rfl⟩ := List.mem_map.mp member
    exact old.declares_literal
  inside _ block inside stmt member := by
    obtain ⟨old, oldMember, rfl⟩ := List.mem_map.mp member
    have everywhere := inside old oldMember
    cases old with
    | function name parameters body =>
      unfold Stmt.Everywhere at everywhere
      unfold Stmt.literal Stmt.Everywhere Expr.Everywhere
      exact everywhere
    | var name value => exact everywhere
    | returns value => exact everywhere
    | exits code => exact everywhere
    | expression value => exact everywhere

/-- The literal captures the same scope, and there is always something to bind. -/
theorem Stmt.exec_literal (call : Caller) (stmt : Stmt) :
    stmt.literal.exec call = stmt.exec call := by
  cases stmt with
  | function name parameters body =>
    unfold Stmt.literal Stmt.exec Expr.eval
    simp only [bind_assoc, pure_bind, present]
  | var name value => rfl
  | returns value => rfl
  | exits code => rfl
  | expression value => rfl

theorem Stmt.execAll_literals (call : Caller) (last : Option Value) (block : Block) :
    Stmt.execAll call last (block.map Stmt.literal) = Stmt.execAll call last block := by
  induction block generalizing last with
  | nil => rfl
  | cons stmt more ih => simp only [List.map_cons, Stmt.execAll, Stmt.exec_literal, ih]

theorem Edit.literals_unnoticed : Edit.literals.Unnoticed :=
  fun call site block => congrArg site.run (Stmt.execAll_literals call none block)

/-- A function statement is the binding of a literal: with every function statement turned into
one the program has the outcome it had, recursive functions included. -/
theorem literals_keep_outcome (program : Block) :
    (program.edited .literals).Everywhere (fun _ block => block.DeclaresNone) ∧
      program.SameOutcome (program.edited .literals) :=
  ⟨Block.everywhere_edited Edit.literals_attains program,
    Edit.literals_unnoticed.sameOutcome program⟩

example : Block.edited .literals [.function "f" [] [.function "g" ["x"] []]] =
    [.var "f" (.function [] [.var "g" (.function ["x"] [])])] := rfl

/-- Two function statements bind their names in the current scope. -/
theorem perform_declarations (call : Caller) (last : Option Value) (name other : String)
    (parameters others : List String) (body otherBody : Block) (machine : Machine) :
    (Stmt.execAll call last [.function name parameters body, .function other others otherBody]).perform
        machine =
      (.ok (some (.function ⟨machine.store.closures + 1, others, otherBody, machine.current⟩)),
        ⟨{ ((machine.store.define machine.current name
              (.function ⟨machine.store.closures, parameters, body, machine.current⟩)).define
            machine.current other
              (.function ⟨machine.store.closures + 1, others, otherBody, machine.current⟩)) with
            closures := machine.store.closures + 2 }, machine.current⟩) := by
  simp only [Stmt.execAll, Stmt.exec]
  rfl

theorem Stmt.sameEffect_swapped (call : Caller) (last other : Option Value) {first second : Stmt}
    {name otherName : String} (here : first.declares? = some name)
    (there : second.declares? = some otherName) (different : name ≠ otherName) :
    (Stmt.execAll call last [first, second]).SameEffect
      (Stmt.execAll call other [second, first]) := by
  obtain ⟨parameters, body, rfl⟩ := Stmt.eq_of_declares here
  obtain ⟨others, otherBody, rfl⟩ := Stmt.eq_of_declares there
  intro machine
  refine ⟨_, _, _, _, perform_declarations .., perform_declarations .., rfl, ?_⟩
  exact machine.store.define_swapped machine.current different (.function ⟨rfl, rfl, rfl⟩)
    (.function ⟨rfl, rfl, rfl⟩)

/-- Exchanging two function statements that stand side by side, if they give different names
and are not the end of the block. -/
def swapping : Rewriting := fun _ _ inner new =>
  ∃ before first second later, inner = before ++ [first, second] ++ later ∧
    new = before ++ [second, first] ++ later ∧ later ≠ [] ∧
      ∃ name other, first.declares? = some name ∧ second.declares? = some other ∧ name ≠ other

theorem exists_append_of_forall₂ {α β : Type} {related : α → β → Prop} {whole : List α}
    {first more : List β} (pairs : List.Forall₂ related whole (first ++ more)) :
    ∃ front back, whole = front ++ back ∧ List.Forall₂ related front first ∧
      List.Forall₂ related back more :=
  ⟨whole.take first.length, whole.drop first.length, (List.take_append_drop _ _).symm,
    List.forall₂_take_append _ _ _ pairs, List.forall₂_drop_append _ _ _ pairs⟩

theorem swapping_sound : swapping.Sound := by
  rintro call calls site old _ _ ⟨before, first, second, later, rfl, rfl, nonempty, name, other,
    here, there, different⟩ stmts
  rw [List.append_assoc] at stmts ⊢
  obtain ⟨oldBefore, rest, rfl, ahead, others⟩ := exists_append_of_forall₂ stmts
  obtain ⟨pair, oldLater, rfl, declared, behind⟩ := exists_append_of_forall₂ others
  have oldNonempty : oldLater ≠ [] := by
    rintro rfl
    cases behind
    exact nonempty rfl
  refine ⟨fun _ => False, fun _ _ hidden => hidden, fun world shown _ => ?_⟩
  rw [Block.names_append, Block.names_append] at shown
  refine Matched.site site ?_
  simp only [Stmt.execAll_append]
  refine (Stmt.execAll_matched ahead shown.left .none).bind fun w₁ grown₁ a₁ b₁ last => ?_
  have matched := Stmt.execAll_matched declared (grown₁.shows shown.right.left) last
  refine (matched.sameEffect (Stmt.sameEffect_swapped call b₁ b₁ here there different)).bind
    fun w₂ grown₂ a₂ b₂ _ => ?_
  -- The pair yields different functions, but what stands behind it does not ask for its value.
  rw [Stmt.execAll_last call a₂ none oldNonempty, Stmt.execAll_last call b₂ none nonempty]
  exact Stmt.execAll_matched behind ((grown₁.trans grown₂).shows shown.right.right) .none

/-- The order of function statements side by side does not matter, for the functions look one
another up in the scope that both of them capture. -/
theorem swapping_keeps_outcome {program swapped : Block}
    (rewritten : Block.Rewritten swapping .program program swapped) : program.SameOutcome swapped :=
  swapping_sound.sameOutcome rewritten

/-- A function that says `truth` at the end of its count and else asks another one. -/
def countingDown (name other : String) (truth : Bool) : Stmt :=
  .function name ["n"]
    [.expression (.ifElse (.binary .less (.name "n") (.integer 1)) [.expression (.boolean truth)]
      [.expression (.call (.name other) [.binary .subtract (.name "n") (.integer 1)])])]

def evenDeclaration : Stmt := countingDown "even" "odd" true

def oddDeclaration : Stmt := countingDown "odd" "even" false

/-- A function that calls one of two functions declared in its body. -/
def parityProgram (first second : Stmt) : Block :=
  [.function "parity" ["n"] [first, second, .returns (.call (.name "even") [.name "n"])],
    .expression (.call (.name "parity") [.integer 1])]

theorem swapping_keeps_outcome_of_mutual_recursion :
    Block.Rewritten swapping .program (parityProgram evenDeclaration oddDeclaration)
      (parityProgram oddDeclaration evenDeclaration) ∧
    (Machine.start.interpret 3 (parityProgram evenDeclaration oddDeclaration)).1 =
      .completed (.finished (some (.boolean false))) ∧
    (parityProgram evenDeclaration oddDeclaration).SameOutcome
      (parityProgram oddDeclaration evenDeclaration) := by
  have swapped : Block.Rewritten swapping .body
      [evenDeclaration, oddDeclaration, .returns (.call (.name "even") [.name "n"])]
      [oddDeclaration, evenDeclaration, .returns (.call (.name "even") [.name "n"])] :=
    .stepped (.refl swapping _) ⟨[], evenDeclaration, oddDeclaration, _, rfl, rfl,
      List.cons_ne_nil _ _, "even", "odd", rfl, rfl, by decide⟩
  have rewritten : Block.Rewritten swapping .program
      (parityProgram evenDeclaration oddDeclaration) (parityProgram oddDeclaration evenDeclaration) :=
    .inside (.cons (.function "parity" ["n"] swapped) (.refl swapping _))
  exact ⟨rewritten, by cbv, swapping_keeps_outcome rewritten⟩

end ScopeScript
