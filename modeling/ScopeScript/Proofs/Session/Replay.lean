import ScopeScript.Proofs.Evaluation.Frame
import ScopeScript.Proofs.Evaluation.Sequence
import ScopeScript.Proofs.Simulation.Congruence

namespace ScopeScript

open Evaluation

/-- The statements of a program that complete normally. -/
def Machine.completed (depth : Nat) : Block → Machine → Block
  | [], _ => []
  | stmt :: more, machine =>
    match (stmt.exec (invoke depth)).perform machine with
    | (.ok _, after) => stmt :: after.completed depth more
    | (.error _, _) => []

/-- The machine behind programs that were run one after the other. -/
def Machine.session (depth : Nat) : List Block → Machine → Machine
  | [], machine => machine
  | program :: more, machine => (machine.interpret depth program).2.session depth more

/-- The statements of a session that complete normally, as one program. -/
def Machine.replayed (depth : Nat) : List Block → Machine → Block
  | [], _ => []
  | program :: more, machine =>
    machine.completed depth program ++
      (machine.interpret depth program).2.replayed depth more

/-- Running the block in a new machine leads to one that corresponds to `machine`. -/
def Replays (depth : Nat) (block : Block) (machine : Machine) : Prop :=
  ∃ world value replay, (∀ name, World.sees world world.current name) ∧
    (Stmt.execAll (invoke depth) none block).perform .start = (.ok value, replay) ∧
    Machine.Matches (Block.Rewritten .never .body) world replay machine

theorem Replays.start (depth : Nat) : Replays depth [] .start := by
  refine ⟨.start fun _ => True, none, .start, fun _ => trivial, ?_, Machine.start_matches _⟩
  unfold Stmt.execAll
  exact perform_pure none .start

/-- A statement that completes is added to the replay, and completes there too: the replay sees
every name that the machine sees. -/
theorem Replays.stmt {depth : Nat} {block : Block} {machine after : Machine} {stmt : Stmt}
    {value : Option Value} (replays : Replays depth block machine)
    (ran : (stmt.exec (invoke depth)).perform machine = (.ok value, after)) :
    Replays depth (block ++ [stmt]) after := by
  obtain ⟨world, last, replay, sees, run, same⟩ := replays
  have matched := (Stmt.Rewritten.refl .never stmt).matched Rewriting.never_sound
    (Rewriting.never_sound.calls depth) world fun name _ => sees name
  obtain ⟨later, grown, sameAfter, ends⟩ := matched replay machine same
  rw [ran] at sameAfter ends
  cases leftRun : (stmt.exec (invoke depth)).perform replay with
  | mk ending replayAfter =>
    rw [leftRun] at sameAfter ends
    cases ends with
    | @ok result _ values =>
      refine ⟨later, result, replayAfter, ?_, ?_, sameAfter⟩
      · intro name
        rw [grown.current, grown.sees _ world.inside]
        exact sees name
      · rw [Stmt.execAll_append, perform_bind, run]
        simp only [Stmt.execAll, bind_pure]
        exact leftRun

/-- An interrupted statement changes no scope there was, and the replay goes on as if it
had not been there. -/
theorem Replays.interrupted {depth : Nat} {block : Block} {machine after : Machine} {stmt : Stmt}
    {interrupt : Interrupt} (replays : Replays depth block machine)
    (ran : (stmt.exec (invoke depth)).perform machine = (.error interrupt, after)) :
    Replays depth block after := by
  obtain ⟨world, last, replay, sees, run, same⟩ := replays
  have kept := stmt.exec_framed (invoke_keeps depth) machine
  rw [ran] at kept
  exact ⟨world, last, replay, sees, run, same.toMatches.right_kept kept.scopes, same.current,
    kept.current.trans same.currentImage⟩

/-- By induction over the statements, up to the first that is interrupted. -/
theorem Replays.program {depth : Nat} {block : Block} {machine : Machine}
    (replays : Replays depth block machine) (program : Block) (last : Option Value) :
    Replays depth (block ++ machine.completed depth program)
      ((Stmt.execAll (invoke depth) last program).perform machine).2 := by
  induction program generalizing block machine last with
  | nil =>
    simpa only [Machine.completed, List.append_nil, Stmt.execAll, perform_pure] using replays
  | cons stmt more ih =>
    unfold Machine.completed Stmt.execAll
    rw [perform_bind]
    cases ran : (stmt.exec (invoke depth)).perform machine with
    | mk ending after =>
      cases ending with
      | ok value =>
        have next := ih (replays.stmt ran) value
        rwa [List.append_assoc, List.singleton_append] at next
      | error interrupt =>
        simpa only [List.append_nil] using replays.interrupted ran

theorem Replays.session {depth : Nat} {block : Block} {machine : Machine}
    (replays : Replays depth block machine) (earlier : List Block) :
    Replays depth (block ++ machine.replayed depth earlier)
      (machine.session depth earlier) := by
  induction earlier generalizing block machine with
  | nil => simpa only [Machine.replayed, Machine.session, List.append_nil] using replays
  | cons program more ih =>
    unfold Machine.replayed Machine.session
    have next := ih (replays.program program none)
    rwa [List.append_assoc] at next

/-- What follows in the same machine ends as it does behind the replay, and closures have the same
text. -/
theorem Replays.interpret {depth : Nat} {block : Block} {machine : Machine}
    (replays : Replays depth block machine) {last : Block} (nonempty : last ≠ []) :
    (Machine.start.interpret depth (block ++ last)).1.Alike Closure.SameText
      (machine.interpret depth last).1 := by
  obtain ⟨world, value, replay, sees, run, same⟩ := replays
  have stmts := (Stmt.AllRewritten.refl .never last).matched Rewriting.never_sound
    (Rewriting.never_sound.calls depth)
  obtain ⟨later, _, _, ends⟩ :=
    Stmt.execAll_matched stmts (fun name _ => sees name) .none replay machine same
  rw [Machine.interpret_append nonempty run]
  exact (Outcome.ofEnding_alike ends).mono fun f g closures =>
    ⟨closures.parameters, closures.body.eq_of_never⟩

/-- A program that follows others ends as if only their completed statements had been
there. Of a statement that was interrupted nothing is left. -/
theorem session_replay (depth : Nat) (earlier : List Block) {last : Block} (nonempty : last ≠ []) :
    (Machine.start.interpret depth (Machine.start.replayed depth earlier ++ last)).1.Alike
      Closure.SameText ((Machine.start.session depth earlier).interpret depth last).1 :=
  ((Replays.start depth).session earlier).interpret nonempty

/-- The second statement binds a name again inside a branch and fails there. -/
def failingSession : List Block :=
  [[.var "x" (.integer 1), .expression (.ifThen (.boolean true)
    [.var "x" (.integer 2), .expression (.binary .divide (.integer 1) (.integer 0))])]]

theorem session_replay_behind_failure :
    ([.expression (.name "x")] : Block) ≠ [] ∧
    Machine.start.replayed 1 failingSession = [.var "x" (.integer 1)] ∧
    (Machine.start.interpret 1
      (Machine.start.replayed 1 failingSession ++ [.expression (.name "x")])).1.Alike
        Closure.SameText
        ((Machine.start.session 1 failingSession).interpret 1 [.expression (.name "x")]).1 := by
  have nonempty : ([.expression (.name "x")] : Block) ≠ [] := by simp
  exact ⟨nonempty, rfl, session_replay 1 failingSession nonempty⟩

end ScopeScript
