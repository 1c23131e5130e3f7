import ScopeScript.Evaluation.Outcome

namespace ScopeScript

open Evaluation

theorem Stmt.execAll_append (call : Caller) (last : Option Value) (first more : Block) :
    Stmt.execAll call last (first ++ more) =
      Stmt.execAll call last first >>= fun value => Stmt.execAll call value more := by
  induction first generalizing last with
  | nil =>
    simp only [List.nil_append, Stmt.execAll, pure_bind]
  | cons stmt rest ih =>
    simp only [List.cons_append, Stmt.execAll, bind_assoc, ih]

/-- What statements before it yield does not matter to a block with statements of its own. -/
theorem Stmt.execAll_last (call : Caller) (last other : Option Value) {block : Block}
    (nonempty : block ≠ []) : Stmt.execAll call last block = Stmt.execAll call other block := by
  cases block with
  | nil => exact absurd rfl nonempty
  | cons stmt more => simp only [Stmt.execAll]

/-- A block that comes to its end does so in its first part and then in the rest. -/
theorem Stmt.execAll_append_ok {call : Caller} {last value : Option Value} {first more : Block}
    {machine after : Machine}
    (ran : (Stmt.execAll call last (first ++ more)).perform machine = (.ok value, after)) :
    ∃ result between, (Stmt.execAll call last first).perform machine = (.ok result, between) ∧
      (Stmt.execAll call result more).perform between = (.ok value, after) := by
  rw [Stmt.execAll_append, perform_bind] at ran
  cases ranFirst : (Stmt.execAll call last first).perform machine with
  | mk ending between =>
    rw [ranFirst] at ran
    cases ending with
    | error interrupt => cases ran
    | ok result => exact ⟨result, between, rfl, ran⟩

/-- Behind statements that came to their end a program runs as it does where they left off. -/
theorem Machine.interpret_append {depth : Nat} {first last : Block} {machine between : Machine}
    {result : Option Value} (nonempty : last ≠ [])
    (ran : (Stmt.execAll (invoke depth) none first).perform machine = (.ok result, between)) :
    machine.interpret depth (first ++ last) = between.interpret depth last := by
  unfold Machine.interpret
  rw [Stmt.execAll_append, perform_bind, ran]
  dsimp only
  rw [Stmt.execAll_last _ _ none nonempty]

end ScopeScript
