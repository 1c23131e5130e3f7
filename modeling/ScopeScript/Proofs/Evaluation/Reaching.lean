import ScopeScript.Evaluation.Outcome

namespace ScopeScript

/-- The machine in which the statements of a new scope begin. -/
def Machine.entered (machine : Machine) (enclosing : Nat) (names : List String)
    (values : List Value) : Machine :=
  ⟨(machine.store.push (some enclosing)).2.defineAll machine.store.scopes.size names values,
    machine.store.scopes.size⟩

mutual

/-- Evaluating the expression on a machine comes to the statement `target` on the machine `there`.
The way leads through operands, conditions, branches, callees and arguments, but not into the
body of a function that is called. -/
inductive Expr.Reaches (call : Caller) (target : Stmt) (there : Machine) : Expr → Machine → Prop
  | left {op : Operator} {left right : Expr} {machine : Machine} :
    Expr.Reaches call target there left machine →
      Expr.Reaches call target there (.binary op left right) machine
  | right {op : Operator} {left right : Expr} {machine between : Machine} {value : Int64} :
    (left.eval call).perform machine = (.ok (some (.integer value)), between) →
      Expr.Reaches call target there right between →
        Expr.Reaches call target there (.binary op left right) machine
  | condition {condition : Expr} {consequence : Block} {machine : Machine} :
    Expr.Reaches call target there condition machine →
      Expr.Reaches call target there (.ifThen condition consequence) machine
  | consequence {condition : Expr} {consequence : Block} {machine between : Machine} :
    (condition.eval call).perform machine = (.ok (some (.boolean true)), between) →
      Block.Reaches call target there consequence (between.entered between.current [] []) →
        Expr.Reaches call target there (.ifThen condition consequence) machine
  | conditionOfElse {condition : Expr} {consequence alternative : Block} {machine : Machine} :
    Expr.Reaches call target there condition machine →
      Expr.Reaches call target there (.ifElse condition consequence alternative) machine
  | consequenceOfElse {condition : Expr} {consequence alternative : Block}
      {machine between : Machine} :
    (condition.eval call).perform machine = (.ok (some (.boolean true)), between) →
      Block.Reaches call target there consequence (between.entered between.current [] []) →
        Expr.Reaches call target there (.ifElse condition consequence alternative) machine
  | alternative {condition : Expr} {consequence alternative : Block} {machine between : Machine} :
    (condition.eval call).perform machine = (.ok (some (.boolean false)), between) →
      Block.Reaches call target there alternative (between.entered between.current [] []) →
        Expr.Reaches call target there (.ifElse condition consequence alternative) machine
  | callee {callee : Expr} {arguments : List Expr} {machine : Machine} :
    Expr.Reaches call target there callee machine →
      Expr.Reaches call target there (.call callee arguments) machine
  | arguments {callee : Expr} {arguments : List Expr} {machine between : Machine}
      {closure : Closure} :
    (callee.eval call).perform machine = (.ok (some (.function closure)), between) →
      closure.parameters.length = arguments.length →
        Expr.ArgumentsReach call target there arguments between →
          Expr.Reaches call target there (.call callee arguments) machine

inductive Expr.ArgumentsReach (call : Caller) (target : Stmt) (there : Machine) :
    List Expr → Machine → Prop
  | first {argument : Expr} {more : List Expr} {machine : Machine} :
    Expr.Reaches call target there argument machine →
      Expr.ArgumentsReach call target there (argument :: more) machine
  | later {argument : Expr} {more : List Expr} {machine between : Machine} {value : Value} :
    (argument.eval call).perform machine = (.ok (some value), between) →
      Expr.ArgumentsReach call target there more between →
        Expr.ArgumentsReach call target there (argument :: more) machine

inductive Stmt.Reaches (call : Caller) (target : Stmt) (there : Machine) : Stmt → Machine → Prop
  | here : Stmt.Reaches call target there target there
  | var {name : String} {value : Expr} {machine : Machine} :
    Expr.Reaches call target there value machine →
      Stmt.Reaches call target there (.var name value) machine
  | returns {value : Expr} {machine : Machine} :
    Expr.Reaches call target there value machine →
      Stmt.Reaches call target there (.returns value) machine
  | exits {code : Expr} {machine : Machine} :
    Expr.Reaches call target there code machine → Stmt.Reaches call target there (.exits code) machine
  | expression {value : Expr} {machine : Machine} :
    Expr.Reaches call target there value machine →
      Stmt.Reaches call target there (.expression value) machine

inductive Block.Reaches (call : Caller) (target : Stmt) (there : Machine) : Block → Machine → Prop
  | first {stmt : Stmt} {more : Block} {machine : Machine} :
    Stmt.Reaches call target there stmt machine →
      Block.Reaches call target there (stmt :: more) machine
  | later {stmt : Stmt} {more : Block} {machine between : Machine} {value : Option Value} :
    (stmt.exec call).perform machine = (.ok value, between) →
      Block.Reaches call target there more between →
        Block.Reaches call target there (stmt :: more) machine

end

namespace Evaluation

variable {α β : Type} {first : Evaluation α} {next : α → Evaluation β} {machine after : Machine}

theorem perform_bind_ok {result : α} (ran : first.perform machine = (.ok result, after)) :
    (first >>= next).perform machine = (next result).perform after := by
  rw [perform_bind, ran]

theorem perform_bind_error {interrupt : Interrupt}
    (ran : first.perform machine = (.error interrupt, after)) :
    (first >>= next).perform machine = (.error interrupt, after) := by
  rw [perform_bind, ran]

/-- An interrupt comes from the first evaluation or from what follows it. -/
theorem interrupt_of_bind {interrupt : Interrupt}
    (ran : (first >>= next).perform machine = (.error interrupt, after)) :
    first.perform machine = (.error interrupt, after) ∨
      ∃ result between, first.perform machine = (.ok result, between) ∧
        (next result).perform between = (.error interrupt, after) := by
  rw [perform_bind] at ran
  cases ranFirst : first.perform machine with
  | mk ending between =>
    rw [ranFirst] at ran
    cases ending with
    | error other =>
      cases ran
      exact Or.inl rfl
    | ok result => exact Or.inr ⟨result, between, rfl, ran⟩

/-- In a new scope statements run as they do on the machine they enter, and the scope from before
is restored. -/
theorem perform_opened (enclosing : Nat) (names : List String) (values : List Value)
    (body : Evaluation β) (machine : Machine) :
    (openScope enclosing names values >>= fun scope => within scope body).perform machine =
      ((body.perform (machine.entered enclosing names values)).1,
        { (body.perform (machine.entered enclosing names values)).2 with
          current := machine.current }) :=
  rfl

end Evaluation

open Evaluation

section Interrupted

variable {call : Caller} {target : Stmt} {there after : Machine} {interrupt : Interrupt}

/-- An interrupt leaves a branch with the store it has. Only the scope is changed back. -/
theorem Evaluation.nested_interrupted {body : Evaluation (Option Value)} {machine : Machine}
    (ran : ∃ last, body.perform (machine.entered machine.current [] []) = (.error interrupt, last) ∧
      last.store = after.store) :
    ∃ last, (nested body).perform machine = (.error interrupt, last) ∧ last.store = after.store := by
  obtain ⟨last, ran, store⟩ := ran
  refine ⟨{ last with current := machine.current }, ?_, store⟩
  change (openScope machine.current [] [] >>= fun scope => within scope body).perform machine = _
  rw [perform_opened, ran]

mutual

/-- If a statement that is reached ends in an interrupt, evaluation ends in it there and then. -/
theorem Expr.Reaches.interrupted (ends : (target.exec call).perform there = (.error interrupt, after))
    {expr : Expr} {machine : Machine} : Expr.Reaches call target there expr machine →
      ∃ last, (expr.eval call).perform machine = (.error interrupt, last) ∧
        last.store = after.store
  | .left reaches => by
    obtain ⟨last, ran, store⟩ := reaches.interrupted ends
    unfold Expr.eval
    exact ⟨last, perform_bind_error ran, store⟩
  | .right value reaches => by
    obtain ⟨last, ran, store⟩ := reaches.interrupted ends
    unfold Expr.eval
    rw [perform_bind_ok value]
    simp only [integer, pure_bind]
    exact ⟨last, perform_bind_error ran, store⟩
  | .condition reaches | .conditionOfElse reaches => by
    obtain ⟨last, ran, store⟩ := reaches.interrupted ends
    unfold Expr.eval
    exact ⟨last, perform_bind_error ran, store⟩
  | .consequence value reaches | .consequenceOfElse value reaches
  | .alternative value reaches => by
    unfold Expr.eval
    rw [perform_bind_ok value]
    exact nested_interrupted (reaches.interrupted ends none)
  | .callee reaches => by
    obtain ⟨last, ran, store⟩ := reaches.interrupted ends
    unfold Expr.eval
    exact ⟨last, perform_bind_error ran, store⟩
  | .arguments value fits reaches => by
    obtain ⟨last, ran, store⟩ := reaches.interrupted ends
    unfold Expr.eval
    rw [perform_bind_ok value]
    simp only [callable, pure_bind, if_pos fits]
    exact ⟨last, perform_bind_error ran, store⟩

theorem Expr.ArgumentsReach.interrupted
    (ends : (target.exec call).perform there = (.error interrupt, after)) {arguments : List Expr}
    {machine : Machine} : Expr.ArgumentsReach call target there arguments machine →
      ∃ last, (Expr.evalAll call arguments).perform machine = (.error interrupt, last) ∧
        last.store = after.store
  | .first reaches => by
    obtain ⟨last, ran, store⟩ := reaches.interrupted ends
    unfold Expr.evalAll
    exact ⟨last, perform_bind_error ran, store⟩
  | .later value reaches => by
    obtain ⟨last, ran, store⟩ := reaches.interrupted ends
    unfold Expr.evalAll
    rw [perform_bind_ok value]
    simp only [present, pure_bind]
    exact ⟨last, perform_bind_error ran, store⟩

theorem Stmt.Reaches.interrupted (ends : (target.exec call).perform there = (.error interrupt, after))
    {stmt : Stmt} {machine : Machine} : Stmt.Reaches call target there stmt machine →
      ∃ last, (stmt.exec call).perform machine = (.error interrupt, last) ∧
        last.store = after.store
  | .here => ⟨after, ends, rfl⟩
  | .var reaches | .returns reaches | .exits reaches => by
    obtain ⟨last, ran, store⟩ := reaches.interrupted ends
    unfold Stmt.exec
    exact ⟨last, perform_bind_error ran, store⟩
  | .expression reaches => by
    unfold Stmt.exec
    exact reaches.interrupted ends

theorem Block.Reaches.interrupted
    (ends : (target.exec call).perform there = (.error interrupt, after)) {block : Block}
    {machine : Machine} (last : Option Value) : Block.Reaches call target there block machine →
      ∃ final, (Stmt.execAll call last block).perform machine = (.error interrupt, final) ∧
        final.store = after.store
  | .first reaches => by
    obtain ⟨final, ran, store⟩ := reaches.interrupted ends
    unfold Stmt.execAll
    exact ⟨final, perform_bind_error ran, store⟩
  | .later value reaches => by
    unfold Stmt.execAll
    rw [perform_bind_ok value]
    exact reaches.interrupted ends _

end

end Interrupted

namespace Evaluation

variable {α : Type} {machine after : Machine} {returned : Option Value}

/-- What follows a check returns only if the check succeeds. -/
theorem returned_of_integer {use : Use} {value : Option Value} {next : Int64 → Evaluation α}
    (ran : (integer use value >>= next).perform machine = (.error (.returned returned), after)) :
    ∃ i, value = some (.integer i) ∧
      (next i).perform machine = (.error (.returned returned), after) := by
  unfold integer at ran
  split at ran
  · exact ⟨_, rfl, ran⟩
  · cases ran

theorem returned_of_boolean {use : Use} {value : Option Value} {next : Bool → Evaluation α}
    (ran : (boolean use value >>= next).perform machine = (.error (.returned returned), after)) :
    ∃ holds, value = some (.boolean holds) ∧
      (next holds).perform machine = (.error (.returned returned), after) := by
  unfold boolean at ran
  split at ran
  · exact ⟨_, rfl, ran⟩
  · cases ran

theorem returned_of_callable {value : Option Value} {next : Closure → Evaluation α}
    (ran : (callable value >>= next).perform machine = (.error (.returned returned), after)) :
    ∃ closure, value = some (.function closure) ∧
      (next closure).perform machine = (.error (.returned returned), after) := by
  unfold callable at ran
  split at ran
  · exact ⟨_, rfl, ran⟩
  · cases ran

theorem returned_of_present {use : Use} {value : Option Value} {next : Value → Evaluation α}
    (ran : (present use value >>= next).perform machine = (.error (.returned returned), after)) :
    ∃ there, value = some there ∧
      (next there).perform machine = (.error (.returned returned), after) := by
  unfold present at ran
  split at ran
  · exact ⟨_, rfl, ran⟩
  · cases ran

end Evaluation

/-- A call is over when its body returns, so it does not return itself. -/
def Caller.Stops (call : Caller) : Prop :=
  ∀ closure values machine after returned,
    (call closure values).perform machine ≠ (.error (.returned returned), after)

/-- A call that is too deep is an error, and a return of its body ends there. -/
theorem invoke_stops (depth : Nat) : (invoke depth).Stops := by
  intro closure values machine after returned ran
  cases depth with
  | zero => cases ran
  | succ depth =>
    unfold invoke at ran
    rw [perform_bind, perform_openScope] at ran
    dsimp only at ran
    rw [perform_untilReturn] at ran
    split at ran
    · cases ran
    · rename_i other
      exact other _ _ ran

/-- A branch stops no return: one that comes out of it comes from its statements. -/
theorem Evaluation.returned_of_nested {body : Evaluation (Option Value)} {machine after : Machine}
    {returned : Option Value}
    (ran : (nested body).perform machine = (.error (.returned returned), after)) :
    ∃ last, body.perform (machine.entered machine.current [] []) =
      (.error (.returned returned), last) := by
  change (openScope machine.current [] [] >>= fun scope => within scope body).perform machine = _
    at ran
  rw [perform_opened] at ran
  exact ⟨_, Prod.ext (Prod.mk.inj ran).1 rfl⟩

section Returned

variable {call : Caller} {after : Machine} {returned : Option Value}

mutual

/-- A return out of an expression comes from a return statement that is reached in it. -/
theorem Expr.reaches_of_returned (stops : call.Stops) : (expr : Expr) → {machine after : Machine} →
    (expr.eval call).perform machine = (.error (.returned returned), after) →
      ∃ result there, Expr.Reaches call (.returns result) there expr machine
  | .name name, machine, after, ran => by
    unfold Expr.eval at ran
    rcases interrupt_of_bind ran with inLookup | ⟨value, between, _, behind⟩
    · rw [perform_lookup] at inLookup
      split at inLookup <;> cases inLookup
    · cases behind
  | .integer value, machine, after, ran => by
    unfold Expr.eval at ran
    cases ran
  | .boolean value, machine, after, ran => by
    unfold Expr.eval at ran
    cases ran
  | .binary op left right, machine, after, ran => by
    unfold Expr.eval at ran
    rcases interrupt_of_bind ran with inLeft | ⟨first, between, value, checked⟩
    · obtain ⟨result, there, reaches⟩ := left.reaches_of_returned stops inLeft
      exact ⟨result, there, .left reaches⟩
    obtain ⟨i, rfl, behind⟩ := returned_of_integer checked
    rcases interrupt_of_bind behind with inRight | ⟨second, last, _, checkedRight⟩
    · obtain ⟨result, there, reaches⟩ := right.reaches_of_returned stops inRight
      exact ⟨result, there, .right value reaches⟩
    obtain ⟨j, rfl, applied⟩ := returned_of_integer checkedRight
    split at applied <;> cases applied
  | .ifThen condition consequence, machine, after, ran => by
    unfold Expr.eval at ran
    rcases interrupt_of_bind ran with inCondition | ⟨first, between, value, checked⟩
    · obtain ⟨result, there, reaches⟩ := condition.reaches_of_returned stops inCondition
      exact ⟨result, there, .condition reaches⟩
    obtain ⟨holds, rfl, behind⟩ := returned_of_boolean checked
    cases holds with
    | false => cases behind
    | true =>
      obtain ⟨last, inside⟩ := returned_of_nested behind
      obtain ⟨result, there, reaches⟩ := Block.reaches_of_returned stops none consequence inside
      exact ⟨result, there, .consequence value reaches⟩
  | .ifElse condition consequence alternative, machine, after, ran => by
    unfold Expr.eval at ran
    rcases interrupt_of_bind ran with inCondition | ⟨first, between, value, checked⟩
    · obtain ⟨result, there, reaches⟩ := condition.reaches_of_returned stops inCondition
      exact ⟨result, there, .conditionOfElse reaches⟩
    obtain ⟨holds, rfl, behind⟩ := returned_of_boolean checked
    cases holds with
    | false =>
      obtain ⟨last, inside⟩ := returned_of_nested behind
      obtain ⟨result, there, reaches⟩ := Block.reaches_of_returned stops none alternative inside
      exact ⟨result, there, .alternative value reaches⟩
    | true =>
      obtain ⟨last, inside⟩ := returned_of_nested behind
      obtain ⟨result, there, reaches⟩ := Block.reaches_of_returned stops none consequence inside
      exact ⟨result, there, .consequenceOfElse value reaches⟩
  | .function parameters body, machine, after, ran => by
    unfold Expr.eval at ran
    cases ran
  | .call callee arguments, machine, after, ran => by
    unfold Expr.eval at ran
    rcases interrupt_of_bind ran with inCallee | ⟨first, between, value, checked⟩
    · obtain ⟨result, there, reaches⟩ := callee.reaches_of_returned stops inCallee
      exact ⟨result, there, .callee reaches⟩
    obtain ⟨closure, rfl, behind⟩ := returned_of_callable checked
    split at behind
    · rename_i fits
      rcases interrupt_of_bind behind with inArguments | ⟨values, last, _, called⟩
      · obtain ⟨result, there, reaches⟩ := Expr.argumentsReach_of_returned stops arguments inArguments
        exact ⟨result, there, .arguments value fits reaches⟩
      · exact absurd called (stops _ _ _ _ _)
    · cases behind

theorem Expr.argumentsReach_of_returned (stops : call.Stops) : (arguments : List Expr) →
    {machine after : Machine} →
    (Expr.evalAll call arguments).perform machine = (.error (.returned returned), after) →
      ∃ result there, Expr.ArgumentsReach call (.returns result) there arguments machine
  | [], machine, after, ran => by
    unfold Expr.evalAll at ran
    cases ran
  | argument :: more, machine, after, ran => by
    unfold Expr.evalAll at ran
    rcases interrupt_of_bind ran with inFirst | ⟨first, between, value, checked⟩
    · obtain ⟨result, there, reaches⟩ := argument.reaches_of_returned stops inFirst
      exact ⟨result, there, .first reaches⟩
    obtain ⟨given, rfl, behind⟩ := returned_of_present checked
    rcases interrupt_of_bind behind with inMore | ⟨values, last, _, ended⟩
    · obtain ⟨result, there, reaches⟩ := Expr.argumentsReach_of_returned stops more inMore
      exact ⟨result, there, .later value reaches⟩
    · cases ended

theorem Stmt.reaches_of_returned (stops : call.Stops) : (stmt : Stmt) → {machine after : Machine} →
    (stmt.exec call).perform machine = (.error (.returned returned), after) →
      ∃ result there, Stmt.Reaches call (.returns result) there stmt machine
  | .var name value, machine, after, ran => by
    unfold Stmt.exec at ran
    rcases interrupt_of_bind ran with inside | ⟨first, between, _, checked⟩
    · obtain ⟨result, there, reaches⟩ := value.reaches_of_returned stops inside
      exact ⟨result, there, .var reaches⟩
    obtain ⟨bound, rfl, behind⟩ := returned_of_present checked
    cases behind
  | .function name parameters body, machine, after, ran => by
    unfold Stmt.exec at ran
    cases ran
  | .returns value, machine, after, ran => ⟨value, machine, .here⟩
  | .exits code, machine, after, ran => by
    unfold Stmt.exec at ran
    rcases interrupt_of_bind ran with inside | ⟨first, between, _, checked⟩
    · obtain ⟨result, there, reaches⟩ := code.reaches_of_returned stops inside
      exact ⟨result, there, .exits reaches⟩
    obtain ⟨i, rfl, behind⟩ := returned_of_integer checked
    cases behind
  | .expression value, machine, after, ran => by
    unfold Stmt.exec at ran
    obtain ⟨result, there, reaches⟩ := value.reaches_of_returned stops ran
    exact ⟨result, there, .expression reaches⟩

theorem Block.reaches_of_returned (stops : call.Stops) (last : Option Value) : (block : Block) →
    {machine after : Machine} →
    (Stmt.execAll call last block).perform machine = (.error (.returned returned), after) →
      ∃ result there, Block.Reaches call (.returns result) there block machine
  | [], machine, after, ran => by
    unfold Stmt.execAll at ran
    cases ran
  | stmt :: more, machine, after, ran => by
    unfold Stmt.execAll at ran
    rcases interrupt_of_bind ran with inFirst | ⟨value, between, yields, ran⟩
    · obtain ⟨result, there, reaches⟩ := stmt.reaches_of_returned stops inFirst
      exact ⟨result, there, .first reaches⟩
    · obtain ⟨result, there, reaches⟩ := Block.reaches_of_returned stops value more ran
      exact ⟨result, there, .later yields reaches⟩

end

end Returned

end ScopeScript
