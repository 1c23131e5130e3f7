import ScopeScript.Proofs.Evaluation.Alike

namespace ScopeScript

namespace Evaluation

/-- The other evaluation does the same on every machine where this one is not too deep. -/
def Approximates {α : Type} (shallow deep : Evaluation α) : Prop :=
  ∀ machine, (shallow.perform machine).1 = .error .tooDeep ∨
    deep.perform machine = shallow.perform machine

theorem Approximates.refl {α : Type} (evaluation : Evaluation α) :
    evaluation.Approximates evaluation :=
  fun _ => Or.inr rfl

/-- If the first evaluation is cut off, so is the whole; else the deeper one does the same. -/
theorem Approximates.bind {α β : Type} {shallow deep : Evaluation α}
    {next deepNext : α → Evaluation β} (first : shallow.Approximates deep)
    (rest : ∀ result, (next result).Approximates (deepNext result)) :
    (shallow >>= next).Approximates (deep >>= deepNext) := by
  intro machine
  rw [perform_bind, perform_bind]
  rcases first machine with cut | same
  · cases ran : shallow.perform machine with
    | mk ending after =>
      rw [ran] at cut
      obtain rfl : ending = .error .tooDeep := cut
      exact Or.inl rfl
  · rw [same]
    cases ran : shallow.perform machine with
    | mk ending after =>
      cases ending with
      | ok result => exact rest result after
      | error interrupt => exact Or.inr rfl

theorem Approximates.within {α : Type} {shallow deep : Evaluation α}
    (bodies : shallow.Approximates deep) (scope : Nat) :
    (within scope shallow).Approximates (within scope deep) := by
  intro machine
  rw [perform_within, perform_within]
  rcases bodies { machine with current := scope } with cut | same
  · exact Or.inl cut
  · rw [same]
    exact Or.inr rfl

theorem Approximates.nested {α : Type} {shallow deep : Evaluation α}
    (bodies : shallow.Approximates deep) : (nested shallow).Approximates (nested deep) := by
  intro machine
  rw [perform_nested, perform_nested]
  exact bodies.within _ _

/-- A return is caught, but to be cut off is not. -/
theorem Approximates.untilReturn {shallow deep : Evaluation (Option Value)}
    (bodies : shallow.Approximates deep) : (untilReturn shallow).Approximates (untilReturn deep) := by
  intro machine
  rw [perform_untilReturn, perform_untilReturn]
  rcases bodies machine with cut | same
  · cases ran : shallow.perform machine with
    | mk ending after =>
      rw [ran] at cut
      obtain rfl : ending = .error .tooDeep := cut
      exact Or.inl rfl
  · rw [same]
    exact Or.inr rfl

end Evaluation

open Evaluation

variable {call deeper : Caller}

mutual

/-- Only calls know of the limit, so an evaluation approximates what its calls do. -/
theorem Expr.eval_approximates
    (calls : ∀ closure values, (call closure values).Approximates (deeper closure values)) :
    (expr : Expr) → (expr.eval call).Approximates (expr.eval deeper)
  | .name name => by
    unfold Expr.eval
    exact .refl _
  | .integer value => by
    unfold Expr.eval
    exact .refl _
  | .boolean value => by
    unfold Expr.eval
    exact .refl _
  | .binary op left right => by
    unfold Expr.eval
    refine (left.eval_approximates calls).bind fun first => (Approximates.refl _).bind fun i => ?_
    exact (right.eval_approximates calls).bind fun second => .refl _
  | .ifThen condition consequence => by
    unfold Expr.eval
    refine (condition.eval_approximates calls).bind fun value => ?_
    refine (Approximates.refl _).bind fun holds => ?_
    split
    · exact (Stmt.execAll_approximates calls none consequence).nested
    · exact .refl _
  | .ifElse condition consequence alternative => by
    unfold Expr.eval
    refine (condition.eval_approximates calls).bind fun value => ?_
    refine (Approximates.refl _).bind fun holds => ?_
    split
    · exact (Stmt.execAll_approximates calls none consequence).nested
    · exact (Stmt.execAll_approximates calls none alternative).nested
  | .function parameters body => by
    unfold Expr.eval
    exact .refl _
  | .call callee arguments => by
    unfold Expr.eval
    refine (callee.eval_approximates calls).bind fun value => ?_
    refine (Approximates.refl _).bind fun closure => ?_
    split
    · exact (Expr.evalAll_approximates calls arguments).bind fun values => calls closure values
    · exact .refl _

theorem Expr.evalAll_approximates
    (calls : ∀ closure values, (call closure values).Approximates (deeper closure values)) :
    (arguments : List Expr) →
      (Expr.evalAll call arguments).Approximates (Expr.evalAll deeper arguments)
  | [] => by
    unfold Expr.evalAll
    exact .refl _
  | argument :: more => by
    unfold Expr.evalAll
    refine (argument.eval_approximates calls).bind fun first => ?_
    refine (Approximates.refl _).bind fun value => ?_
    exact (Expr.evalAll_approximates calls more).bind fun values => .refl _

theorem Stmt.exec_approximates
    (calls : ∀ closure values, (call closure values).Approximates (deeper closure values)) :
    (stmt : Stmt) → (stmt.exec call).Approximates (stmt.exec deeper)
  | .var name value => by
    unfold Stmt.exec
    exact (value.eval_approximates calls).bind fun first => .refl _
  | .function name parameters body => by
    unfold Stmt.exec
    exact .refl _
  | .returns value => by
    unfold Stmt.exec
    exact (value.eval_approximates calls).bind fun result => .refl _
  | .exits code => by
    unfold Stmt.exec
    exact (code.eval_approximates calls).bind fun result => .refl _
  | .expression value => by
    unfold Stmt.exec
    exact value.eval_approximates calls

theorem Stmt.execAll_approximates
    (calls : ∀ closure values, (call closure values).Approximates (deeper closure values))
    (last : Option Value) : (stmts : List Stmt) →
      (Stmt.execAll call last stmts).Approximates (Stmt.execAll deeper last stmts)
  | [] => by
    unfold Stmt.execAll
    exact .refl _
  | stmt :: more => by
    unfold Stmt.execAll
    exact (stmt.exec_approximates calls).bind fun value =>
      Stmt.execAll_approximates calls value more

end

/-- A call that is not cut off does the same with a higher limit. -/
theorem invoke_approximates {depth deep : Nat} (le : depth ≤ deep) (closure : Closure)
    (values : List Value) : (invoke depth closure values).Approximates (invoke deep closure values) := by
  induction depth generalizing deep closure values with
  | zero => exact fun machine => Or.inl rfl
  | succ depth ih =>
    obtain ⟨deep, rfl⟩ : ∃ more, deep = more + 1 := ⟨deep - 1, by omega⟩
    have calls := fun closure values => ih (by omega : depth ≤ deep) closure values
    unfold invoke
    refine (Approximates.refl _).bind fun scope => ?_
    exact ((Stmt.execAll_approximates calls none closure.body).within scope).untilReturn

/-- Statements that come to their end do so with every higher limit. -/
theorem Stmt.execAll_of_le {depth deep : Nat} (le : depth ≤ deep) {last value : Option Value}
    {block : Block} {machine after : Machine}
    (ran : (Stmt.execAll (invoke depth) last block).perform machine = (.ok value, after)) :
    (Stmt.execAll (invoke deep) last block).perform machine = (.ok value, after) := by
  have runs := Stmt.execAll_approximates (fun closure values => invoke_approximates le closure values)
    last block machine
  rw [ran] at runs
  rcases runs with cut | same
  · cases cut
  · exact same

/-- A run that is not too deep is the same with every higher limit, and so is what it
leaves behind. -/
theorem Machine.interpret_of_le {depth deep : Nat} (le : depth ≤ deep) (program : Block)
    (machine : Machine) (ends : (machine.interpret depth program).1 ≠ .tooDeep) :
    machine.interpret deep program = machine.interpret depth program := by
  have runs := Stmt.execAll_approximates (fun closure values => invoke_approximates le closure values)
    none program machine
  unfold Machine.interpret at ends ⊢
  rcases runs with cut | same
  · cases ran : (Stmt.execAll (invoke depth) none program).perform machine with
    | mk ending after =>
      rw [ran] at cut ends
      obtain rfl : ending = .error .tooDeep := cut
      exact absurd rfl ends
  · rw [same]

/-- Runs that are alike wherever the limit is high enough both come to their end, or neither
does. -/
theorem Machine.ends_iff_of_alike {closures : Closure → Closure → Prop} {program other : Block}
    {machine : Machine} {depth : Nat}
    (alike : ∀ deep, depth ≤ deep → (machine.interpret deep program).1.Alike closures
      (machine.interpret deep other).1) :
    (∃ deep, (machine.interpret deep program).1 ≠ .tooDeep) ↔
      ∃ deep, (machine.interpret deep other).1 ≠ .tooDeep := by
  constructor
  · rintro ⟨deep, ends⟩
    have same := machine.interpret_of_le (Nat.le_max_right depth deep) program ends
    have both := alike (max depth deep) (Nat.le_max_left depth deep)
    rw [same] at both
    exact ⟨max depth deep, fun cut => ends (both.tooDeep_iff.mpr cut)⟩
  · rintro ⟨deep, ends⟩
    have same := machine.interpret_of_le (Nat.le_max_right depth deep) other ends
    have both := alike (max depth deep) (Nat.le_max_left depth deep)
    rw [same] at both
    exact ⟨max depth deep, fun cut => ends (both.tooDeep_iff.mp cut)⟩

/-- The two programs do the same in new machines: at any depth their outcomes are alike, with
functions that have the same parameters, and both come to an end or neither does. -/
structure Block.SameOutcome (program other : Block) : Prop where
  alike : ∀ depth, (Machine.start.interpret depth program).1.Alike Closure.SameParameters
    (Machine.start.interpret depth other).1
  ends : (∃ depth, (Machine.start.interpret depth program).1 ≠ .tooDeep) ↔
    ∃ depth, (Machine.start.interpret depth other).1 ≠ .tooDeep

end ScopeScript
