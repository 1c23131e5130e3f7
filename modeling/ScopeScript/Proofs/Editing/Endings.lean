import ScopeScript.Proofs.Editing.Basic
import ScopeScript.Proofs.Evaluation.Sequence

namespace ScopeScript

open Evaluation

/-- A return or an exit, behind which a list of statements does not go on. -/
def Stmt.stops : Stmt → Bool
  | .returns _ => true
  | .exits _ => true
  | _ => false

/-- The statements up to the first one that stops. -/
def Block.trimmed : Block → Block
  | [] => []
  | stmt :: more => if stmt.stops then [stmt] else stmt :: Block.trimmed more

/-- Leaving out what stands behind a return or an exit. -/
def Edit.trimming : Edit := fun _ block => block.trimmed

/-- A statement that stops is the last one. -/
def Block.StopsLast (block : Block) : Prop :=
  ∀ before stmt after, block = before ++ stmt :: after → stmt.stops → after = []

/-- Trimming takes away from the end only. -/
theorem Block.trimmed_isPrefix (block : Block) : block.trimmed <+: block := by
  induction block with
  | nil => exact List.prefix_rfl
  | cons stmt more ih =>
    unfold Block.trimmed
    split
    · exact ⟨more, rfl⟩
    · exact List.cons_prefix_cons.mpr ⟨rfl, ih⟩

theorem Block.stopsLast_trimmed (block : Block) : block.trimmed.StopsLast := by
  induction block with
  | nil =>
    intro before stmt after split
    simp [Block.trimmed] at split
  | cons first more ih =>
    intro before stmt after whole stops
    unfold Block.trimmed at whole
    split at whole
    · cases before with
      | nil => exact (List.cons.inj whole).2.symm
      | cons _ before => simp at whole
    · rename_i goesOn
      cases before with
      | nil => exact absurd ((List.cons.inj whole).1 ▸ stops) goesOn
      | cons _ before => exact ih before stmt after (List.cons.inj whole).2 stops

/-- The statements that stay are some of those there were, so nothing in them is left to trim. -/
theorem Edit.trimming_attains : Edit.trimming.Attains fun _ block => block.StopsLast where
  edited _ block := block.stopsLast_trimmed
  inside _ block inside stmt member := inside stmt (block.trimmed_isPrefix.subset member)

theorem Evaluation.throw_bind {α β : Type} (interrupt : Interrupt) (next : α → Evaluation β) :
    (throw interrupt : Evaluation α) >>= next = throw interrupt := by
  funext machine
  rfl

/-- What would follow a return or an exit makes no difference: both end in an interrupt, if
not earlier with an error. -/
theorem Stmt.exec_bind_of_stops (call : Caller) {stmt : Stmt} (stops : stmt.stops)
    (next other : Option Value → Evaluation (Option Value)) :
    stmt.exec call >>= next = stmt.exec call >>= other := by
  cases stmt with
  | returns value =>
    unfold Stmt.exec
    simp only [bind_assoc, throw_bind]
  | exits code =>
    unfold Stmt.exec
    simp only [bind_assoc, throw_bind]
  | var name value => cases stops
  | function name parameters body => cases stops
  | expression value => cases stops

theorem Stmt.execAll_trimmed (call : Caller) (last : Option Value) (block : Block) :
    Stmt.execAll call last block.trimmed = Stmt.execAll call last block := by
  induction block generalizing last with
  | nil => rfl
  | cons stmt more ih =>
    unfold Block.trimmed
    split
    · rename_i stops
      unfold Stmt.execAll
      exact stmt.exec_bind_of_stops call stops _ _
    · unfold Stmt.execAll
      simp only [ih]

theorem Edit.trimming_unnoticed : Edit.trimming.Unnoticed :=
  fun call site block => congrArg site.run (Stmt.execAll_trimmed call none block)

/-- Nothing runs behind a return or an exit: without all that stands behind one, in the program
and in every block of it, the program has the outcome it had. -/
theorem trimming_keeps_outcome (program : Block) :
    (program.edited .trimming).Everywhere (fun _ block => block.StopsLast) ∧
      program.SameOutcome (program.edited .trimming) :=
  ⟨Block.everywhere_edited Edit.trimming_attains program,
    Edit.trimming_unnoticed.sameOutcome program⟩

example : Block.edited .trimming
      [.expression (.function [] [.returns (.integer 1), .exits (.integer 2)]),
        .exits (.integer 3), .expression (.integer 4)] =
    [.expression (.function [] [.returns (.integer 1)]), .exits (.integer 3)] := rfl

/-- The block, where a return at its end has become an expression. -/
def Block.yielding (block : Block) : Block :=
  match block.getLast? with
  | some (.returns value) => block.dropLast ++ [.expression value]
  | _ => block

/-- Making an expression of a return at the end of a function body. Elsewhere a return at the
end of a block does more than give the block its value. -/
def Edit.yielding : Edit
  | .body, block => block.yielding
  | _, block => block

/-- A return is not the last statement of the block. -/
def Block.EndsPlainly (block : Block) : Prop :=
  ∀ value, block.getLast? ≠ some (.returns value)

theorem Block.yielding_cases (block : Block) :
    (∃ before value, block = before ++ [.returns value] ∧
      block.yielding = before ++ [.expression value]) ∨
    (block.EndsPlainly ∧ block.yielding = block) := by
  unfold Block.yielding
  split
  · rename_i value atEnd
    obtain ⟨before, rfl⟩ := List.getLast?_eq_some_iff.mp atEnd
    exact Or.inl ⟨before, value, rfl, by rw [List.dropLast_concat]⟩
  · rename_i plain
    exact Or.inr ⟨plain, rfl⟩

theorem Edit.yielding_attains :
    Edit.yielding.Attains fun site block => site = .body → block.EndsPlainly where
  edited site block := by
    rintro rfl value
    rcases block.yielding_cases with ⟨before, result, _, yields⟩ | ⟨plain, yields⟩
    · simp [Edit.yielding, yields]
    · rw [Edit.yielding, yields]
      exact plain value
  inside site block inside stmt member := by
    cases site with
    | program => exact inside stmt member
    | branch => exact inside stmt member
    | body =>
      change stmt ∈ block.yielding at member
      rcases block.yielding_cases with ⟨before, value, rfl, yields⟩ | ⟨_, yields⟩
      · rw [yields] at member
        rcases List.mem_append.mp member with earlier | ended
        · exact inside stmt (List.mem_append_left _ earlier)
        · obtain rfl := List.mem_singleton.mp ended
          have returned := inside (.returns value) (by simp)
          unfold Stmt.Everywhere at returned ⊢
          exact returned
      · exact inside stmt (yields ▸ member)

/-- Where a return is stopped anyway, one behind the value changes nothing. -/
theorem Evaluation.untilReturn_returned (body : Evaluation (Option Value)) :
    untilReturn (body >>= fun value => throw (.returned value)) = untilReturn body := by
  funext machine
  change (untilReturn (body >>= fun value => throw (.returned value))).perform machine =
    (untilReturn body).perform machine
  rw [perform_untilReturn, perform_untilReturn, perform_bind]
  generalize body.perform machine = ran
  obtain ⟨ending, after⟩ := ran
  cases ending with
  | ok value => rfl
  | error interrupt => cases interrupt <;> rfl

/-- A return at the end is its expression with a return behind it. -/
theorem Stmt.execAll_returns (call : Caller) (last : Option Value) (before : Block) (value : Expr) :
    Stmt.execAll call last (before ++ [.returns value]) =
      Stmt.execAll call last (before ++ [.expression value]) >>= fun result =>
        throw (.returned result) := by
  simp only [Stmt.execAll_append, Stmt.execAll, Stmt.exec, bind_assoc, bind_pure]

theorem Edit.yielding_unnoticed : Edit.yielding.Unnoticed := by
  intro call site block
  cases site with
  | program => rfl
  | branch => rfl
  | body =>
    change untilReturn (Stmt.execAll call none block.yielding) =
      untilReturn (Stmt.execAll call none block)
    rcases block.yielding_cases with ⟨before, value, rfl, yields⟩ | ⟨_, yields⟩
    · rw [yields, Stmt.execAll_returns, untilReturn_returned]
    · rw [yields]

/-- The last value of a body is its result as if it were returned: with every return at the end
of a function body turned into an expression the program has the outcome it had. -/
theorem yielding_keeps_outcome (program : Block) :
    (program.edited .yielding).Everywhere (fun site block => site = .body → block.EndsPlainly) ∧
      program.SameOutcome (program.edited .yielding) :=
  ⟨Block.everywhere_edited Edit.yielding_attains program,
    Edit.yielding_unnoticed.sameOutcome program⟩

example : Block.edited .yielding
      [.function "f" [] [.expression (.ifThen (.boolean true) [.returns (.integer 1)]),
        .returns (.integer 2)], .returns (.call (.name "f") [])] =
    [.function "f" [] [.expression (.ifThen (.boolean true) [.returns (.integer 1)]),
      .expression (.integer 2)], .returns (.call (.name "f") [])] := rfl

end ScopeScript
