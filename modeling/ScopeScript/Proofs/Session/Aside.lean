import Mathlib
import ScopeScript.Proofs.Evaluation.Depth
import ScopeScript.Proofs.Session.Replay

namespace ScopeScript

open Evaluation

variable {code : Block → Block → Prop} {world : World}

/-- A statement that came to its end on one side is not noticed if the name it binds is not
seen. -/
theorem Machine.Matches.framed {left right after : Machine} {binds : Option String}
    {value : Option Value} (same : Machine.Matches code world left right)
    (framed : right.Framed binds (.ok value, after))
    (unseen : ∀ name ∈ binds, ¬ world.sees world.current name) :
    Machine.Matches code world left after := by
  cases binds with
  | none =>
    exact ⟨same.toMatches.right_kept framed.scopes, same.current,
      framed.current.trans same.currentImage⟩
  | some name =>
    obtain ⟨bound, _, change⟩ := framed
    exact same.bound_unseen change (unseen name rfl)

/-- Whatever statements do on one side, those of the other go on as if they had not been there. -/
theorem Machine.Matches.aside {aside : Block} {depth : Nat} {left right after : Machine}
    {last value : Option Value} (same : Machine.Matches code world left right)
    (unseen : ∀ stmt ∈ aside, ∀ name ∈ stmt.binds?, ¬ world.sees world.current name)
    (ran : (Stmt.execAll (invoke depth) last aside).perform right = (.ok value, after)) :
    Machine.Matches code world left after := by
  induction aside generalizing right last with
  | nil =>
    unfold Stmt.execAll at ran
    cases ran
    exact same
  | cons stmt more ih =>
    obtain ⟨here, behind⟩ := List.forall_mem_cons.mp unseen
    unfold Stmt.execAll at ran
    rw [perform_bind] at ran
    have framed := stmt.exec_framed (invoke_keeps depth) right
    cases first : (stmt.exec (invoke depth)).perform right with
    | mk ending between =>
      rw [first] at ran framed
      cases ending with
      | error interrupt => cases ran
      | ok result => exact ih (same.framed framed here) behind ran

/-- With a limit that is high enough for them, statements aside change nothing of the outcome. -/
theorem interpret_aside_alike {before aside later : Block} (nonempty : later ≠ [])
    (unmentioned : ∀ stmt ∈ aside, ∀ name ∈ stmt.binds?, name ∉ before.names ∧ name ∉ later.names)
    {depth : Nat} {value : Option Value} {after : Machine}
    (completes : (Stmt.execAll (invoke depth) none (before ++ aside)).perform .start =
      (.ok value, after)) :
    (Machine.start.interpret depth (before ++ later)).1.Alike Closure.SameText
      (Machine.start.interpret depth (before ++ aside ++ later)).1 := by
  obtain ⟨result, between, ranBefore, ranAside⟩ := Stmt.execAll_append_ok completes
  have calls := Rewriting.never_sound.calls depth
  -- Seen are the names of the program, so nothing that is bound aside is seen.
  let seen : String → Prop := fun name => name ∈ before.names ∨ name ∈ later.names
  have first := (Stmt.AllRewritten.refl .never before).matched Rewriting.never_sound calls
  have shownFirst : (World.start seen).Shows before.names := fun name member => .inl member
  obtain ⟨world, grown, same, _⟩ :=
    Stmt.execAll_matched first shownFirst .none .start .start (Machine.start_matches seen)
  rw [ranBefore] at same
  have sees : world.sees world.current = seen := by
    rw [grown.current, grown.sees _ (World.start seen).inside]
    rfl
  have unseen : ∀ stmt ∈ aside, ∀ name ∈ stmt.binds?, ¬ world.sees world.current name := by
    intro stmt member name binds
    obtain ⟨notBefore, notLater⟩ := unmentioned stmt member name binds
    rw [sees]
    exact fun mentioned => mentioned.elim notBefore notLater
  have second := (Stmt.AllRewritten.refl .never later).matched Rewriting.never_sound calls
  have shownSecond : world.Shows later.names := fun name member => sees ▸ .inr member
  obtain ⟨last, _, _, ends⟩ :=
    Stmt.execAll_matched second shownSecond .none between after (same.aside unseen ranAside)
  rw [Machine.interpret_append nonempty ranBefore, Machine.interpret_append nonempty completes]
  exact (Outcome.ofEnding_alike ends).mono fun f g closures =>
    ⟨closures.parameters, closures.body.eq_of_never⟩

/-- Computations aside change no outcome. Between two parts of a program there may stand any
statements that come to their end, if the names they bind are mentioned in neither part. An
expression binds none, and all of them may call what the first part defines. -/
theorem aside_keeps_outcome {before aside later : Block} (nonempty : later ≠ [])
    (unmentioned : ∀ stmt ∈ aside, ∀ name ∈ stmt.binds?, name ∉ before.names ∧ name ∉ later.names)
    {depth : Nat} {value : Option Value} {after : Machine}
    (completes : (Stmt.execAll (invoke depth) none (before ++ aside)).perform .start =
      (.ok value, after)) :
    (∀ deep, depth ≤ deep →
      (Machine.start.interpret deep (before ++ later)).1.Alike Closure.SameText
        (Machine.start.interpret deep (before ++ aside ++ later)).1) ∧
    ((∃ deep, (Machine.start.interpret deep (before ++ later)).1 ≠ .tooDeep) ↔
      ∃ deep, (Machine.start.interpret deep (before ++ aside ++ later)).1 ≠ .tooDeep) := by
  have alike (deep : Nat) (le : depth ≤ deep) :=
    interpret_aside_alike nonempty unmentioned (Stmt.execAll_of_le le completes)
  exact ⟨alike, Machine.ends_iff_of_alike alike⟩

/-- A function that binds a name of its own as the program does, and adds to it. -/
def shadowingProgram : Block :=
  [.var "x" (.integer 1),
    .function "f" ["y"] [.var "x" (.name "y"), .expression (.binary .add (.name "x") (.name "y"))]]

/-- Two calls of the function, of which the second takes what the first gave. -/
def callsAside : Block :=
  [.var "z" (.call (.name "f") [.integer 5]), .expression (.call (.name "f") [.name "z"])]

theorem aside_keeps_outcome_of_calls :
    ([.expression (.name "x")] : Block) ≠ [] ∧
    (∀ stmt ∈ callsAside, ∀ name ∈ stmt.binds?,
      name ∉ shadowingProgram.names ∧ name ∉ Block.names [.expression (.name "x")]) ∧
    ((Stmt.execAll (invoke 1) none (shadowingProgram ++ callsAside)).perform .start).1 =
      .ok (some (.integer 20)) ∧
    ∀ deep, 1 ≤ deep →
      (Machine.start.interpret deep (shadowingProgram ++ [.expression (.name "x")])).1.Alike
        Closure.SameText
        (Machine.start.interpret deep
          (shadowingProgram ++ callsAside ++ [.expression (.name "x")])).1 := by
  have nonempty : ([.expression (.name "x")] : Block) ≠ [] := by simp
  have unmentioned : ∀ stmt ∈ callsAside, ∀ name ∈ stmt.binds?,
      name ∉ shadowingProgram.names ∧ name ∉ Block.names [.expression (.name "x")] := by decide
  have ends : ((Stmt.execAll (invoke 1) none (shadowingProgram ++ callsAside)).perform .start).1 =
      .ok (some (.integer 20)) := by cbv
  exact ⟨nonempty, unmentioned, ends,
    (aside_keeps_outcome nonempty unmentioned (Prod.ext ends rfl)).1⟩

end ScopeScript
