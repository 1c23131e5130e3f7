import ScopeScript.Value.Store

namespace ScopeScript

/-- Where a run stands: every scope there is, and the one in which names have
their meaning now. -/
structure Machine where
  store : Store
  current : Nat

/-- One global scope, and nothing bound. -/
def Machine.start : Machine :=
  let (scope, store) := Store.empty.push none
  ⟨store, scope⟩

/-- How evaluation ends without going on to what follows. A run is `tooDeep` when
more calls are open at once than it was allowed. -/
inductive Interrupt
  | returned (value : Option Value)
  | exited (code : Int64)
  | failed (error : RuntimeError)
  | tooDeep

/-- An evaluation acts on the machine and gives a result or an interrupt. What it
did to the machine stays done in both cases. -/
abbrev Evaluation (α : Type) := ExceptT Interrupt (StateM Machine) α

namespace Evaluation

/-- The ending of an evaluation on a machine, and the machine behind it. -/
def perform {α : Type} (evaluation : Evaluation α) (machine : Machine) :
    Except Interrupt α × Machine :=
  evaluation.run.run machine

def fail {α : Type} (error : RuntimeError) : Evaluation α :=
  throw (.failed error)

/-- The meaning of a name in the current scope. -/
def lookup (name : String) : Evaluation Value := do
  let machine ← get
  match machine.store.get machine.current name with
  | .ok value => pure value
  | .error error => fail error

/-- Binds a name in the current scope. -/
def define (name : String) (value : Value) : Evaluation Unit :=
  modify fun machine => { machine with store := machine.store.define machine.current name value }

/-- A new closure over the current scope. -/
def capture (parameters : List String) (body : Block) : Evaluation Value :=
  modifyGet fun machine =>
    let (closure, store) := machine.store.newClosure parameters body machine.current
    (.function closure, { machine with store := store })

/-- Opens a scope inside `enclosing` that binds `names` to `values`. -/
def openScope (enclosing : Nat) (names : List String) (values : List Value) : Evaluation Nat :=
  modifyGet fun machine =>
    let (scope, store) := machine.store.push (some enclosing)
    (scope, { machine with store := store.defineAll scope names values })

/-- Evaluates in another scope. However that ends, the scope from before is the
current one again. -/
def within {α : Type} (scope : Nat) (body : Evaluation α) : Evaluation α :=
  ExceptT.mk fun machine =>
    let previous := machine.current
    let (ending, after) := body.perform { machine with current := scope }
    (ending, { after with current := previous })

/-- Evaluates in a new scope inside the current one. -/
def nested {α : Type} (body : Evaluation α) : Evaluation α := do
  let machine ← get
  let scope ← openScope machine.current [] []
  within scope body

/-- A return out of `body` is its result. -/
def untilReturn (body : Evaluation (Option Value)) : Evaluation (Option Value) :=
  tryCatch body fun interrupt =>
    match interrupt with
    | .returned value => pure value
    | other => throw other

/-- A value that must be there. -/
def present (use : Use) : Option Value → Evaluation Value
  | some value => pure value
  | none => fail (.typeMismatch use none)

def integer (use : Use) : Option Value → Evaluation Int64
  | some (.integer value) => pure value
  | other => fail (.typeMismatch use (other.map Value.kind))

def boolean (use : Use) : Option Value → Evaluation Bool
  | some (.boolean value) => pure value
  | other => fail (.typeMismatch use (other.map Value.kind))

def callable : Option Value → Evaluation Closure
  | some (.function closure) => pure closure
  | other => fail (.notCallable (other.map Value.kind))

@[simp] theorem perform_pure {α : Type} (result : α) (machine : Machine) :
    perform (pure result) machine = (.ok result, machine) := rfl

@[simp] theorem perform_throw {α : Type} (interrupt : Interrupt) (machine : Machine) :
    perform (throw interrupt : Evaluation α) machine = (.error interrupt, machine) := rfl

@[simp] theorem perform_fail {α : Type} (error : RuntimeError) (machine : Machine) :
    perform (fail error : Evaluation α) machine = (.error (.failed error), machine) := rfl

/-- What follows runs on the machine that was left, and does not run behind an
interrupt. -/
theorem perform_bind {α β : Type} (first : Evaluation α) (next : α → Evaluation β)
    (machine : Machine) :
    perform (first >>= next) machine =
      match perform first machine with
      | (.ok result, after) => perform (next result) after
      | (.error interrupt, after) => (.error interrupt, after) := by
  simp only [perform, bind, ExceptT.bind, ExceptT.mk, StateT.bind, ExceptT.run, StateT.run]
  rcases first machine with ⟨ending, after⟩
  cases ending <;> rfl

theorem perform_lookup (name : String) (machine : Machine) :
    perform (lookup name) machine =
      match machine.store.get machine.current name with
      | .ok value => (.ok value, machine)
      | .error error => (.error (.failed error), machine) := by
  unfold lookup
  rw [perform_bind]
  change perform (match machine.store.get machine.current name with
    | .ok value => pure value
    | .error error => fail error) machine = _
  cases machine.store.get machine.current name <;> rfl

@[simp] theorem perform_define (name : String) (value : Value) (machine : Machine) :
    perform (define name value) machine =
      (.ok (), { machine with store := machine.store.define machine.current name value }) := rfl

@[simp] theorem perform_openScope (enclosing : Nat) (names : List String) (values : List Value)
    (machine : Machine) :
    perform (openScope enclosing names values) machine =
      (.ok machine.store.scopes.size,
        { machine with
          store := (machine.store.push (some enclosing)).2.defineAll machine.store.scopes.size
            names values }) := rfl

@[simp] theorem perform_within {α : Type} (scope : Nat) (body : Evaluation α) (machine : Machine) :
    perform (within scope body) machine =
      ((perform body { machine with current := scope }).1,
        { (perform body { machine with current := scope }).2 with current := machine.current }) :=
  rfl

/-- Nothing but the new scope itself distinguishes a nested evaluation from one in
the scope around it. -/
theorem perform_nested {α : Type} (body : Evaluation α) (machine : Machine) :
    perform (nested body) machine =
      perform (within machine.store.scopes.size body)
        { machine with store := (machine.store.push (some machine.current)).2 } := rfl

theorem perform_untilReturn (body : Evaluation (Option Value)) (machine : Machine) :
    perform (untilReturn body) machine =
      match perform body machine with
      | (.error (.returned value), after) => (.ok value, after)
      | other => other := by
  simp only [perform, untilReturn, tryCatch, tryCatchThe, MonadExceptOf.tryCatch,
    ExceptT.tryCatch, ExceptT.mk, ExceptT.run, bind, StateT.bind, StateT.run]
  rcases body machine with ⟨ending, after⟩
  cases ending with
  | ok value => rfl
  | error interrupt => cases interrupt <;> rfl

end Evaluation

end ScopeScript
