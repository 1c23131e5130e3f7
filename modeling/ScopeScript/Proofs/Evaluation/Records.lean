import ScopeScript.Proofs.Evaluation.Chronicle
import ScopeScript.Proofs.Session.Replay

namespace ScopeScript

open Evaluation

/-- A call of a closure that is known, with values that are known, is told by the events. -/
def Caller.Records (call : Caller) (inCall : CallEvents) : Prop :=
  ∀ closure values made (machine : Machine), machine.Sound made → closure ∈ made →
    (∀ value ∈ values, value.Known made) →
    ScopeScript.Records made machine (call closure values) (inCall closure values machine) Known

section Evaluations

variable {call : Caller} {inCall : CallEvents}

/-- What is evaluated in a scope of its own is told like the block it is. -/
theorem Records.block {made : List Closure} {machine : Machine} {block : Block}
    (sound : machine.Sound made)
    (told : (machine.entered machine.current [] []).Sound made →
      Records made (machine.entered machine.current [] []) (Stmt.execAll call none block)
        (Stmt.allEvents call inCall block (machine.entered machine.current [] [])) Known) :
    Records made machine (Evaluation.nested (Stmt.execAll call none block))
      ((Phrase.block block).around call (machine.entered machine.current [] [])
        (Stmt.allEvents call inCall block (machine.entered machine.current [] []))) Known :=
  .nested sound fun inside => .around (.block block) inside (fun _ _ => rfl) (told inside)

mutual

/-- The events of an evaluation tell what it does, on every sound machine. -/
theorem Expr.records (calls : call.Records inCall) : (expr : Expr) → (made : List Closure) →
    (machine : Machine) → machine.Sound made →
      Records made machine (expr.eval call) (expr.events call inCall machine) Known
  | .name name, _, _, sound => by
    refine .around (.expr (.name name)) sound (fun _ _ => rfl) ?_
    rw [Phrase.run, Expr.eval]
    exact (Records.lookup sound name).bind_quiet fun value after is soundAfter =>
      .pure soundAfter (known_some is)
  | .integer value, _, _, sound => by
    refine .around (.expr (.integer value)) sound (fun _ _ => rfl) ?_
    rw [Phrase.run, Expr.eval]
    exact .pure sound (known_some (Value.known_integer _ _))
  | .boolean value, _, _, sound => by
    refine .around (.expr (.boolean value)) sound (fun _ _ => rfl) ?_
    rw [Phrase.run, Expr.eval]
    exact .pure sound (known_some (Value.known_boolean _ _))
  | .binary op left right, made, machine, sound => by
    refine .around (.expr (.binary op left right)) sound (fun _ _ => rfl) ?_
    rw [Phrase.run, Expr.eval]
    refine (left.records calls made machine sound).bind fun first after _ sound => ?_
    refine (Records.integer sound _ first).quiet_bind fun i after _ sound => ?_
    refine (right.records calls _ after sound).bind_quiet fun second after _ sound => ?_
    refine (Records.integer sound _ second).bind_quiet fun j after _ sound => ?_
    split
    · rename_i value is
      have other := Operator.apply_ne_function is
      exact .pure sound (known_some fun closure same => absurd same (other closure))
    · exact .fail sound _
  | .ifThen condition consequence, made, machine, sound => by
    refine .around (.expr (.ifThen condition consequence)) sound (fun _ _ => rfl) ?_
    rw [Phrase.run, Expr.eval]
    refine (condition.records calls made machine sound).bind fun value after _ sound => ?_
    refine (Records.boolean sound _ value).quiet_bind fun holds after _ sound => ?_
    split
    · exact .block sound (Stmt.recordsAll calls consequence none _ _ · (known_none _))
    · exact .pure sound (known_none _)
  | .ifElse condition consequence alternative, made, machine, sound => by
    refine .around (.expr (.ifElse condition consequence alternative)) sound (fun _ _ => rfl) ?_
    rw [Phrase.run, Expr.eval]
    refine (condition.records calls made machine sound).bind fun value after _ sound => ?_
    refine (Records.boolean sound _ value).quiet_bind fun holds after _ sound => ?_
    split
    · exact .block sound (Stmt.recordsAll calls consequence none _ _ · (known_none _))
    · exact .block sound (Stmt.recordsAll calls alternative none _ _ · (known_none _))
  | .function parameters body, made, machine, sound => by
    refine .making call (.expr (.function parameters body)) sound ?_ rfl ?_ (sound.capture parameters body)
    · rw [Phrase.run, Expr.eval]
      rfl
    · exact Store.linksKept_newClosure machine.store parameters body machine.current
  | .call callee arguments, made, machine, sound => by
    refine .around (.expr (.call callee arguments)) sound (fun _ _ => rfl) ?_
    rw [Phrase.run, Expr.eval]
    refine (callee.records calls made machine sound).bind fun value after known sound => ?_
    refine (Records.callable sound known).quiet_bind fun closure after member sound => ?_
    split
    · refine (Expr.recordsAll calls arguments _ after sound).bind fun values after known sound => ?_
      exact calls closure values _ after sound (List.mem_append_left _ member) known
    · exact .fail sound _

theorem Expr.recordsAll (calls : call.Records inCall) : (arguments : List Expr) →
    (made : List Closure) → (machine : Machine) → machine.Sound made →
      Records made machine (Expr.evalAll call arguments)
        (Expr.allEvents call inCall arguments machine)
        fun made values => ∀ value ∈ values, value.Known made
  | [], _, _, sound => by
    unfold Expr.evalAll Expr.allEvents
    exact .pure sound (List.forall_mem_nil _)
  | argument :: more, made, machine, sound => by
    unfold Expr.evalAll Expr.allEvents
    refine (argument.records calls made machine sound).bind fun first after known sound => ?_
    refine (Records.present sound _ known).quiet_bind fun value after is sound => ?_
    refine (Expr.recordsAll calls more _ after sound).bind_quiet fun values after known sound => ?_
    exact .pure sound (List.forall_mem_cons.mpr ⟨is.mono, known⟩)

theorem Stmt.records (calls : call.Records inCall) : (stmt : Stmt) → (made : List Closure) →
    (machine : Machine) → machine.Sound made →
      Records made machine (stmt.exec call) (stmt.events call inCall machine) Known
  | .var name value, made, machine, sound => by
    refine .around (.stmt (.var name value)) sound (fun _ _ => rfl) ?_
    rw [Phrase.run, Stmt.exec]
    refine (value.records calls made machine sound).bind_quiet fun first after known sound => ?_
    refine (Records.present sound _ known).bind_quiet fun bound after is sound => ?_
    exact (Records.define sound name is).bind_quiet fun _ after is sound =>
      .pure sound (known_some is)
  | .function name parameters body, made, machine, sound => by
    have kept := Store.linksKept_newClosure machine.store parameters body machine.current
    have captured := sound.capture parameters body
    have known : (Value.function (machine.store.newClosure parameters body machine.current).1).Known
        (made ++ [(machine.store.newClosure parameters body machine.current).1]) :=
      Value.known_function (List.mem_append_right made (List.mem_singleton_self _))
    refine .making call (.stmt (.function name parameters body)) sound ?_ rfl ?_
      (captured.define name known)
    · rw [Phrase.run, Stmt.exec]
      rfl
    · exact kept.trans (Store.linksKept_define ..)
  | .returns value, made, machine, sound => by
    refine .around (.stmt (.returns value)) sound (fun _ _ => rfl) ?_
    rw [Phrase.run, Stmt.exec]
    exact (value.records calls made machine sound).bind_quiet fun result after known sound =>
      .throw sound known
  | .exits code, made, machine, sound => by
    refine .around (.stmt (.exits code)) sound (fun _ _ => rfl) ?_
    rw [Phrase.run, Stmt.exec]
    refine (code.records calls made machine sound).bind_quiet fun result after _ sound => ?_
    exact (Records.integer sound _ result).bind_quiet fun value after _ sound =>
      .throw sound (known_none _)
  | .expression value, made, machine, sound => by
    refine .around (.stmt (.expression value)) sound (fun _ _ => rfl) ?_
    rw [Phrase.run, Stmt.exec]
    exact value.records calls made machine sound

theorem Stmt.recordsAll (calls : call.Records inCall) : (stmts : List Stmt) →
    (last : Option Value) → (made : List Closure) → (machine : Machine) → machine.Sound made →
      Known made last →
        Records made machine (Stmt.execAll call last stmts)
          (Stmt.allEvents call inCall stmts machine) Known
  | [], last, _, _, sound, known => by
    unfold Stmt.execAll Stmt.allEvents
    exact .pure sound known
  | stmt :: more, _, made, machine, sound, _ => by
    unfold Stmt.execAll Stmt.allEvents
    exact (stmt.records calls made machine sound).bind fun value after known sound =>
      Stmt.recordsAll calls more value _ after sound known

end

end Evaluations

/-- The events of a call tell what it does, however many calls it makes. -/
theorem invoke_records (depth : Nat) : (invoke depth).Records (invokeEvents depth) := by
  induction depth with
  | zero => exact fun closure values made machine sound _ _ => .throw sound (known_none made)
  | succ depth calls =>
    intro closure values made machine sound member known
    unfold invoke invokeEvents
    simp only [Evaluation.within_untilReturn]
    refine .opened sound (sound.store.captured closure member) known fun inside => ?_
    exact .untilReturn (.around (.block closure.body) inside (fun _ _ => rfl)
      (Stmt.recordsAll calls closure.body none made _ inside (known_none made)))

theorem Outcome.known_ofEnding {made : List Closure} {ending : Except Interrupt (Option Value)}
    (known : Known made (carried ending)) : Known made (Outcome.ofEnding ending).value? := by
  match ending with
  | .ok _ => exact known
  | .error (.returned _) => exact known
  | .error (.exited _) => exact known_none made
  | .error (.failed _) => exact known_none made
  | .error .tooDeep => exact known_none made

/-- The events of a session tell what it does, from one program to the next. -/
theorem Machine.Sound.events (depth : Nat) (session : List Block) {made : List Closure}
    {machine : Machine} (sound : machine.Sound made) :
    Chronicle made machine (machine.events depth session) (machine.session depth session) := by
  induction session generalizing made machine with
  | nil => exact .refl _
  | cons program more ih =>
    have told := Stmt.recordsAll (invoke_records depth) program none made machine sound
      (known_none made)
    unfold Records at told
    unfold Machine.events Machine.session Machine.interpret
    cases ran : (Stmt.execAll (invoke depth) none program).perform machine with
    | mk ending after =>
      rw [ran] at told
      obtain ⟨chronicle, soundAfter, meets⟩ := told
      have known := Outcome.known_ofEnding meets.known
      exact chronicle.append (.quiet rfl (.refl _) soundAfter known (ih soundAfter))

end ScopeScript
