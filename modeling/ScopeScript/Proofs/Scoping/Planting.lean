import ScopeScript.Proofs.Simulation.Congruence

namespace ScopeScript

open Evaluation

/-- Binding an integer at the beginning of a block, under a name that the block does not
mention. Empty blocks, which have no value to keep, and the program itself are left. -/
def planting : Rewriting := fun site old inner new =>
  site ≠ .program ∧ old ≠ [] ∧ ∃ name value, name ∉ old.names ∧
    new = .var name (.integer value) :: inner

/-- Behind the planted statement the block runs as it did, in a scope with one more name. -/
theorem perform_planted (call : Caller) (name : String) (value : Int64) {block : Block}
    (nonempty : block ≠ []) (machine : Machine) :
    (Stmt.execAll call none (.var name (.integer value) :: block)).perform machine =
      (Stmt.execAll call none block).perform
        { machine with store := machine.store.define machine.current name (.integer value) } := by
  cases block with
  | nil => exact absurd rfl nonempty
  | cons stmt more =>
    unfold Stmt.execAll
    rfl

theorem planting_sound : planting.Sound := by
  rintro call calls site old inner new ⟨_, nonempty, name, value, absent, rfl⟩ stmts
  have innerNonempty : inner ≠ [] := by
    rintro rfl
    cases stmts
    exact nonempty rfl
  refine ⟨fun hidden => hidden = name, fun other member same => absent (same ▸ member), ?_⟩
  intro world shown unseen
  refine Matched.site site fun before other same => ?_
  rw [perform_planted call name value innerNonempty]
  have bound := (Machine.Kept.refl other).define name (.integer value)
  exact Stmt.execAll_matched stmts shown .none _ _ (same.bound_unseen bound (unseen name rfl))

/-- What is planted is never noticed, at whatever depth the program runs: a lookup reaches
the scopes around its own text and no others. -/
theorem planting_keeps_outcome {program planted : Block}
    (rewritten : Block.Rewritten planting .program program planted) : program.SameOutcome planted :=
  planting_sound.sameOutcome rewritten

/-- A branch that may call a function which mentions an outer name. -/
def outerNameProgram (branch : Block) : Block :=
  [.var "z" (.integer 1), .function "f" [] [.expression (.name "z")],
    .expression (.ifThen (.boolean true) branch)]

theorem planting_keeps_outcome_of_outer_name :
    Block.Rewritten planting .program (outerNameProgram [.expression (.call (.name "f") [])])
      (outerNameProgram [.var "z" (.integer 2), .expression (.call (.name "f") [])]) ∧
    (outerNameProgram [.expression (.call (.name "f") [])]).SameOutcome
      (outerNameProgram [.var "z" (.integer 2), .expression (.call (.name "f") [])]) := by
  have absent : "z" ∉ Block.names [.expression (.call (.name "f") [])] := by decide
  have planted : Block.Rewritten planting .branch [.expression (.call (.name "f") [])]
      [.var "z" (.integer 2), .expression (.call (.name "f") [])] :=
    .stepped (.refl _ _) ⟨by decide, by simp, "z", 2, absent, rfl⟩
  have rewritten : Block.Rewritten planting .program
      (outerNameProgram [.expression (.call (.name "f") [])])
      (outerNameProgram [.var "z" (.integer 2), .expression (.call (.name "f") [])]) :=
    .inside (.cons (.refl _ _) (.cons (.refl _ _)
      (.cons (.expression (.ifThen (.boolean true) planted)) .nil)))
  exact ⟨rewritten, planting_keeps_outcome rewritten⟩

end ScopeScript
