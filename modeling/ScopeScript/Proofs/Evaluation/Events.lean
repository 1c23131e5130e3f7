import ScopeScript.Proofs.Evaluation.Reaching
import ScopeScript.Proofs.Store.Graph

namespace ScopeScript

/-- What is evaluated by itself. A block has a scope of its own. -/
inductive Phrase
  | expr (expr : Expr)
  | stmt (stmt : Stmt)
  | block (block : Block)

def Phrase.run (call : Caller) : Phrase → Evaluation (Option Value)
  | expr e => e.eval call
  | stmt s => s.exec call
  | block b => Stmt.execAll call none b

/-- What happens in a run. Whatever is evaluated begins on a machine and ends with a result or an
interrupt on another one; what is evaluated inside of it stands in between, also in the bodies of
functions that are called. Behind each program of a session stands its outcome. -/
inductive Event
  | begins (phrase : Phrase) (machine : Machine)
  | ends (phrase : Phrase) (ending : Except Interrupt (Option Value)) (machine : Machine)
  | concludes (outcome : Outcome) (machine : Machine)

/-- The value of a return. -/
def Interrupt.carried : Interrupt → Option Value
  | .returned value => value
  | _ => none

/-- The value of a result or of a return. -/
def carried : Except Interrupt (Option Value) → Option Value
  | .ok value => value
  | .error interrupt => interrupt.carried

def Outcome.value? : Outcome → Option Value
  | .completed (.finished value) => value
  | _ => none

namespace Event

/-- The machine as it is at the event. -/
def machine : Event → Machine
  | begins _ machine => machine
  | ends _ _ machine => machine
  | concludes _ machine => machine

/-- The closure that is new at the event: the one that a function literal or a function
statement has just been evaluated to. -/
def made : Event → List Closure
  | ends (.expr (.function _ _)) (.ok (some (.function closure))) _ => [closure]
  | ends (.stmt (.function _ _ _)) (.ok (some (.function closure))) _ => [closure]
  | _ => []

/-- The value with which something comes to its end, also by a return. -/
def value? : Event → Option Value
  | begins _ _ => none
  | ends _ ending _ => carried ending
  | concludes outcome _ => outcome.value?

/-- The closure is bound in some scope, or it is what something has just ended with. -/
def Holds (event : Event) (closure : Closure) : Prop :=
  event.machine.store.Binds closure ∨ event.value? = some (.function closure)

end Event

/-- The closures that are made at the events, in their order. -/
def madeIn (events : List Event) : List Closure := events.flatMap Event.made

/-- The evaluation of a phrase, with what happens inside of it. -/
def Phrase.around (call : Caller) (phrase : Phrase) (machine : Machine) (inside : List Event) :
    List Event :=
  let (ending, after) := (phrase.run call).perform machine
  .begins phrase machine :: (inside ++ [.ends phrase ending after])

/-- What happens behind an evaluation that is not interrupted. -/
def Evaluation.behind {α : Type} (first : Evaluation α) (next : α → Machine → List Event)
    (machine : Machine) : List Event :=
  match first.perform machine with
  | (.ok result, after) => next result after
  | (.error _, _) => []

/-- What happens in the calls that an evaluation makes. -/
abbrev CallEvents := Closure → List Value → Machine → List Event

open Evaluation

mutual

def Expr.events (call : Caller) (inCall : CallEvents) : Expr → Machine → List Event
  | .name name, machine => (Phrase.expr (.name name)).around call machine []
  | .integer value, machine => (Phrase.expr (.integer value)).around call machine []
  | .boolean value, machine => (Phrase.expr (.boolean value)).around call machine []
  | .binary op left right, machine =>
    (Phrase.expr (.binary op left right)).around call machine <|
      left.events call inCall machine ++
        behind (left.eval call) (fun first => behind (integer (.operand op) first) fun _ =>
          right.events call inCall) machine
  | .ifThen condition consequence, machine =>
    (Phrase.expr (.ifThen condition consequence)).around call machine <|
      condition.events call inCall machine ++
        behind (condition.eval call) (fun value => behind (boolean .condition value)
          fun holds between =>
            if holds then
              let inside := between.entered between.current [] []
              (Phrase.block consequence).around call inside
                (Stmt.allEvents call inCall consequence inside)
            else []) machine
  | .ifElse condition consequence alternative, machine =>
    (Phrase.expr (.ifElse condition consequence alternative)).around call machine <|
      condition.events call inCall machine ++
        behind (condition.eval call) (fun value => behind (boolean .condition value)
          fun holds between =>
            let inside := between.entered between.current [] []
            if holds then
              (Phrase.block consequence).around call inside
                (Stmt.allEvents call inCall consequence inside)
            else
              (Phrase.block alternative).around call inside
                (Stmt.allEvents call inCall alternative inside)) machine
  | .function parameters body, machine =>
    (Phrase.expr (.function parameters body)).around call machine []
  | .call callee arguments, machine =>
    (Phrase.expr (.call callee arguments)).around call machine <|
      callee.events call inCall machine ++
        behind (callee.eval call) (fun value => behind (callable value) fun closure between =>
          if closure.parameters.length = arguments.length then
            Expr.allEvents call inCall arguments between ++
              behind (Expr.evalAll call arguments) (inCall closure) between
          else []) machine

def Expr.allEvents (call : Caller) (inCall : CallEvents) : List Expr → Machine → List Event
  | [], _ => []
  | argument :: more, machine =>
    argument.events call inCall machine ++
      behind (argument.eval call) (fun first => behind (present .argument first) fun _ =>
        Expr.allEvents call inCall more) machine

def Stmt.events (call : Caller) (inCall : CallEvents) : Stmt → Machine → List Event
  | .var name value, machine =>
    (Phrase.stmt (.var name value)).around call machine (value.events call inCall machine)
  | .function name parameters body, machine =>
    (Phrase.stmt (.function name parameters body)).around call machine []
  | .returns value, machine =>
    (Phrase.stmt (.returns value)).around call machine (value.events call inCall machine)
  | .exits code, machine =>
    (Phrase.stmt (.exits code)).around call machine (code.events call inCall machine)
  | .expression value, machine =>
    (Phrase.stmt (.expression value)).around call machine (value.events call inCall machine)

def Stmt.allEvents (call : Caller) (inCall : CallEvents) : List Stmt → Machine → List Event
  | [], _ => []
  | stmt :: more, machine =>
    stmt.events call inCall machine ++
      behind (stmt.exec call) (fun _ => Stmt.allEvents call inCall more) machine

end

/-- What happens in a call: the body is evaluated in a new scope. -/
def invokeEvents : Nat → CallEvents
  | 0, _, _, _ => []
  | depth + 1, closure, values, machine =>
    let inside := machine.entered closure.scope closure.parameters values
    (Phrase.block closure.body).around (invoke depth) inside
      (Stmt.allEvents (invoke depth) (invokeEvents depth) closure.body inside)

/-- What happens while programs are run one after the other. -/
def Machine.events (depth : Nat) : List Block → Machine → List Event
  | [], _ => []
  | program :: more, machine =>
    let (outcome, after) := machine.interpret depth program
    Stmt.allEvents (invoke depth) (invokeEvents depth) program machine ++
      .concludes outcome after :: after.events depth more

section Reached

variable {call : Caller} {inCall : CallEvents} {target : Stmt} {there : Machine}

theorem Phrase.mem_around {phrase : Phrase} {machine : Machine} {inside : List Event} {event : Event}
    (happens : event ∈ inside) : event ∈ phrase.around call machine inside :=
  List.mem_cons_of_mem _ (List.mem_append_left _ happens)

/-- What follows an evaluation happens on the machine that it leaves. -/
theorem Evaluation.behind_ok {α : Type} {first : Evaluation α} {next : α → Machine → List Event}
    {machine after : Machine} {result : α} (ran : first.perform machine = (.ok result, after)) :
    behind first next machine = next result after := by
  rw [behind, ran]

/-- A statement begins, whatever kind it is and however it ends. -/
theorem Stmt.begins_mem (stmt : Stmt) (machine : Machine) :
    .begins (.stmt stmt) machine ∈ stmt.events call inCall machine := by
  cases stmt <;> exact List.mem_cons_self

mutual

/-- A statement that evaluation comes to begins there. -/
theorem Expr.Reaches.begins {expr : Expr} {machine : Machine} :
    Expr.Reaches call target there expr machine →
      .begins (.stmt target) there ∈ expr.events call inCall machine
  | .left reaches | .condition reaches | .conditionOfElse reaches | .callee reaches =>
    Phrase.mem_around (List.mem_append_left _ reaches.begins)
  | .right value reaches => by
    refine Phrase.mem_around (List.mem_append_right _ ?_)
    rw [behind_ok value]
    exact reaches.begins
  | .consequence value reaches | .consequenceOfElse value reaches | .alternative value reaches => by
    refine Phrase.mem_around (List.mem_append_right _ ?_)
    rw [behind_ok value]
    exact Phrase.mem_around reaches.begins
  | .arguments value fits reaches => by
    refine Phrase.mem_around (List.mem_append_right _ ?_)
    simp only [behind_ok value, callable, behind_ok (perform_pure _ _), if_pos fits]
    exact List.mem_append_left _ reaches.begins

theorem Expr.ArgumentsReach.begins {arguments : List Expr} {machine : Machine} :
    Expr.ArgumentsReach call target there arguments machine →
      .begins (.stmt target) there ∈ Expr.allEvents call inCall arguments machine
  | .first reaches => List.mem_append_left _ reaches.begins
  | .later value reaches => by
    refine List.mem_append_right _ ?_
    rw [behind_ok value]
    exact reaches.begins

theorem Stmt.Reaches.begins {stmt : Stmt} {machine : Machine} :
    Stmt.Reaches call target there stmt machine →
      .begins (.stmt target) there ∈ stmt.events call inCall machine
  | .here => target.begins_mem there
  | .var reaches | .returns reaches | .exits reaches | .expression reaches =>
    Phrase.mem_around reaches.begins

theorem Block.Reaches.begins {block : Block} {machine : Machine} :
    Block.Reaches call target there block machine →
      .begins (.stmt target) there ∈ Stmt.allEvents call inCall block machine
  | .first reaches => List.mem_append_left _ reaches.begins
  | .later value reaches => by
    refine List.mem_append_right _ ?_
    rw [behind_ok value]
    exact reaches.begins

end

end Reached

end ScopeScript
