import Mathlib
import ScopeScript.Proofs.Evaluation.Reaching
import ScopeScript.Proofs.Session.Replay

namespace ScopeScript

open Evaluation

mutual

/-- Every return in the expression stands in the body of a function. -/
def Expr.confined : Expr → Bool
  | .name _ => true
  | .integer _ => true
  | .boolean _ => true
  | .binary _ left right => left.confined && right.confined
  | .ifThen condition consequence => condition.confined && Stmt.allConfined consequence
  | .ifElse condition consequence alternative =>
    condition.confined && (Stmt.allConfined consequence && Stmt.allConfined alternative)
  | .function _ _ => true
  | .call callee arguments => callee.confined && Expr.allConfined arguments

def Expr.allConfined : List Expr → Bool
  | [] => true
  | argument :: more => argument.confined && Expr.allConfined more

def Stmt.confined : Stmt → Bool
  | .var _ value => value.confined
  | .function _ _ _ => true
  | .returns _ => false
  | .exits code => code.confined
  | .expression value => value.confined

def Stmt.allConfined : List Stmt → Bool
  | [] => true
  | stmt :: more => stmt.confined && Stmt.allConfined more

end

section Confined

variable {call : Caller} {result : Expr} {there : Machine}

mutual

/-- What is confined to the bodies of functions is not reached from outside of them. -/
theorem Expr.Reaches.not_confined {expr : Expr} {machine : Machine} :
    Expr.Reaches call (.returns result) there expr machine → ¬ expr.confined
  | .left reaches | .condition reaches | .conditionOfElse reaches | .callee reaches => by
    simp only [Expr.confined, Bool.and_eq_true]
    exact fun confined => reaches.not_confined confined.1
  | .right _ reaches | .consequence _ reaches | .arguments _ _ reaches => by
    simp only [Expr.confined, Bool.and_eq_true]
    exact fun confined => reaches.not_confined confined.2
  | .consequenceOfElse _ reaches => by
    simp only [Expr.confined, Bool.and_eq_true]
    exact fun confined => reaches.not_confined confined.2.1
  | .alternative _ reaches => by
    simp only [Expr.confined, Bool.and_eq_true]
    exact fun confined => reaches.not_confined confined.2.2

theorem Expr.ArgumentsReach.not_confined {arguments : List Expr} {machine : Machine} :
    Expr.ArgumentsReach call (.returns result) there arguments machine →
      ¬ Expr.allConfined arguments
  | .first reaches => by
    simp only [Expr.allConfined, Bool.and_eq_true]
    exact fun confined => reaches.not_confined confined.1
  | .later _ reaches => by
    simp only [Expr.allConfined, Bool.and_eq_true]
    exact fun confined => reaches.not_confined confined.2

theorem Stmt.Reaches.not_confined {stmt : Stmt} {machine : Machine} :
    Stmt.Reaches call (.returns result) there stmt machine → ¬ stmt.confined
  | .here => Bool.false_ne_true
  | .var reaches | .exits reaches | .expression reaches => by
    unfold Stmt.confined
    exact reaches.not_confined
  | .returns _ => Bool.false_ne_true

theorem Block.Reaches.not_confined {block : Block} {machine : Machine} :
    Block.Reaches call (.returns result) there block machine → ¬ Stmt.allConfined block
  | .first reaches => by
    simp only [Stmt.allConfined, Bool.and_eq_true]
    exact fun confined => reaches.not_confined confined.1
  | .later _ reaches => by
    simp only [Stmt.allConfined, Bool.and_eq_true]
    exact fun confined => reaches.not_confined confined.2

end

end Confined

/-- A return that is reached in the body of a called function ends the call with its value. -/
theorem invoke_of_reached_return {depth : Nat} {closure : Closure} {values : List Value}
    {machine there after : Machine} {result : Expr} {value : Option Value}
    (reaches : Block.Reaches (invoke depth) (.returns result) there closure.body
      (machine.entered closure.scope closure.parameters values))
    (yields : (result.eval (invoke depth)).perform there = (.ok value, after)) :
    (invoke (depth + 1) closure values).perform machine =
      (.ok value, { after with current := machine.current }) := by
  have returns : ((Stmt.returns result).exec (invoke depth)).perform there =
      (.error (.returned value), after) := by
    unfold Stmt.exec
    rw [Evaluation.perform_bind_ok yields]
    rfl
  obtain ⟨last, ran, store⟩ := reaches.interrupted returns none
  have stopped : (untilReturn (Stmt.execAll (invoke depth) none closure.body)).perform
      (machine.entered closure.scope closure.parameters values) = (.ok value, last) := by
    rw [perform_untilReturn, ran]
  unfold invoke
  simp only [within_untilReturn]
  rw [perform_opened, stopped, ← store]

/-- Statements that come to their end are all completed. -/
theorem Machine.completed_of_ok {depth : Nat} {program : Block} {last value : Option Value}
    {machine after : Machine}
    (ran : (Stmt.execAll (invoke depth) last program).perform machine = (.ok value, after)) :
    machine.completed depth program = program := by
  induction program generalizing machine last with
  | nil => rfl
  | cons stmt more ih =>
    unfold Stmt.execAll at ran
    unfold Machine.completed
    cases first : (stmt.exec (invoke depth)).perform machine with
    | mk ending between =>
      cases ending with
      | error interrupt =>
        rw [perform_bind_error first] at ran
        cases ran
      | ok result =>
        rw [perform_bind_ok first] at ran
        exact congrArg (stmt :: ·) (ih ran)

/-- How a program comes to its end if no return of its own ends it. -/
theorem Machine.interpret_of_confined {program : Block} (confined : Stmt.allConfined program)
    (depth : Nat) (machine : Machine) :
    (machine.completed depth program = program ∧
        ∃ value, (machine.interpret depth program).1 = .completed (.finished value)) ∨
      (∃ code, (machine.interpret depth program).1 = .completed (.exited code)) ∨
      (∃ error, (machine.interpret depth program).1 = .failed error) ∨
      (machine.interpret depth program).1 = .tooDeep := by
  unfold Machine.interpret
  cases ran : (Stmt.execAll (invoke depth) none program).perform machine with
  | mk ending after =>
    cases ending with
    | ok value => exact Or.inl ⟨machine.completed_of_ok ran, value, rfl⟩
    | error interrupt =>
      cases interrupt with
      | exited code => exact Or.inr (Or.inl ⟨code, rfl⟩)
      | failed error => exact Or.inr (Or.inr (Or.inl ⟨error, rfl⟩))
      | tooDeep => exact Or.inr (Or.inr (Or.inr rfl))
      | returned value =>
        obtain ⟨result, there, reaches⟩ :=
          Block.reaches_of_returned (invoke_stops depth) none program ran
        exact absurd confined reaches.not_confined

/-- A return does not cross a call. Evaluation of what has its returns in bodies of functions
does not end in one, whatever closures there are to call. A return that is reached in the body
of a called function, inside whatever blocks, operands, callees and arguments, ends this call
with its value and does no more. A program with its returns in bodies of functions runs through
all its statements, unless it exits, fails or opens too many calls. -/
theorem return_stops_at_call (depth : Nat) (machine : Machine) :
    (∀ expr : Expr, expr.confined → ∀ value after,
      (expr.eval (invoke depth)).perform machine ≠ (.error (.returned value), after)) ∧
    (∀ stmt : Stmt, stmt.confined → ∀ value after,
      (stmt.exec (invoke depth)).perform machine ≠ (.error (.returned value), after)) ∧
    (∀ closure values result there value after,
      Block.Reaches (invoke depth) (.returns result) there closure.body
        (machine.entered closure.scope closure.parameters values) →
      (result.eval (invoke depth)).perform there = (.ok value, after) →
      (invoke (depth + 1) closure values).perform machine =
        (.ok value, { after with current := machine.current })) ∧
    ∀ program : Block, Stmt.allConfined program →
      (machine.completed depth program = program ∧
          ∃ value, (machine.interpret depth program).1 = .completed (.finished value)) ∨
        (∃ code, (machine.interpret depth program).1 = .completed (.exited code)) ∨
        (∃ error, (machine.interpret depth program).1 = .failed error) ∨
        (machine.interpret depth program).1 = .tooDeep := by
  refine ⟨?_, ?_, ?_, ?_⟩
  · intro expr confined value after ran
    obtain ⟨result, there, reaches⟩ := expr.reaches_of_returned (invoke_stops depth) ran
    exact reaches.not_confined confined
  · intro stmt confined value after ran
    obtain ⟨result, there, reaches⟩ := stmt.reaches_of_returned (invoke_stops depth) ran
    exact reaches.not_confined confined
  · exact fun _ _ _ _ _ _ reaches yields => invoke_of_reached_return reaches yields
  · exact fun _ confined => machine.interpret_of_confined confined depth

/-- A body with a return in a branch, which is an operand in an argument of a call. -/
def returningBody : Block :=
  [.expression (.call (.function ["y"] [.expression (.name "y")])
      [.binary .add (.integer 1) (.ifThen (.boolean true) [.returns (.integer 5)])]),
    .expression (.integer 7)]

/-- A call of a function with such a body, and what goes on behind it. -/
def returningSum : Expr := .binary .add (.call (.function [] returningBody) []) (.integer 1)

def returningProgram : Block := [.var "x" returningSum, .expression (.name "x")]

theorem return_stops_at_call_of_operand :
    returningSum.confined ∧ (Stmt.var "x" returningSum).confined ∧
    Stmt.allConfined returningProgram ∧
    (∀ value after, (returningSum.eval (invoke 2)).perform .start ≠
      (.error (.returned value), after)) ∧
    (∀ value after, ((Stmt.var "x" returningSum).exec (invoke 2)).perform .start ≠
      (.error (.returned value), after)) ∧
    (∃ there, Block.Reaches (invoke 1) (.returns (.integer 5)) there returningBody
        (Machine.start.entered 0 [] []) ∧
      (invoke 2 ⟨0, [], returningBody, 0⟩ []).perform .start =
        (.ok (some (.integer 5)), { there with current := 0 })) ∧
    (Machine.start.interpret 2 returningProgram).1 = .completed (.finished (some (.integer 6))) ∧
    Machine.start.completed 2 returningProgram = returningProgram := by
  have confined : Stmt.allConfined returningProgram := by decide
  obtain ⟨there, reaches⟩ : ∃ there, Block.Reaches (invoke 1) (.returns (.integer 5)) there
      returningBody (Machine.start.entered 0 [] []) :=
    ⟨_, .first (.expression (.arguments rfl rfl
      (.first (.right rfl (.consequence rfl (.first .here))))))⟩
  have runs : (Machine.start.interpret 2 returningProgram).1 =
      .completed (.finished (some (.integer 6))) := by cbv
  obtain ⟨exprs, stmts, _, programs⟩ := return_stops_at_call 2 .start
  have called := (return_stops_at_call 1 .start).2.2.1 ⟨0, [], returningBody, 0⟩ [] _ there
    (some (.integer 5)) there reaches rfl
  refine ⟨by decide, by decide, confined, exprs _ (by decide), stmts _ (by decide),
    ⟨there, reaches, called⟩, runs, ?_⟩
  have ends := programs returningProgram confined
  rw [runs] at ends
  rcases ends with completed | ⟨_, exits⟩ | ⟨_, fails⟩ | deep
  · exact completed.1
  · cases exits
  · cases fails
  · cases deep

end ScopeScript
