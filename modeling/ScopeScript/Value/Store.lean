import ScopeScript.Value.Error

namespace ScopeScript

/-- Bindings of names, the latest first, and the scope that is asked for the
names it does not bind. -/
structure Scope where
  enclosing : Option Nat
  bindings : List (String × Value)

/-- All scopes ever opened, numbered in the order of their opening, and the
number of closures ever made. -/
structure Store where
  scopes : Array Scope
  closures : Nat

namespace Store

def empty : Store := ⟨#[], 0⟩

/-- A new scope without bindings. -/
def push (store : Store) (enclosing : Option Nat) : Nat × Store :=
  (store.scopes.size, { store with scopes := store.scopes.push ⟨enclosing, []⟩ })

/-- Binds a name in one scope, whatever it was bound to there before. -/
def define (store : Store) (scope : Nat) (name : String) (value : Value) : Store :=
  { store with
    scopes := store.scopes.modify scope fun old =>
      { old with bindings := (name, value) :: old.bindings } }

/-- Binds names to values pairwise and in order, so that of two equal names the
later one counts. -/
def defineAll (store : Store) (scope : Nat) : List String → List Value → Store
  | name :: names, value :: values => (store.define scope name value).defineAll scope names values
  | _, _ => store

/-- What a name means in a scope: its binding there, or what it means in the
enclosing scope. An enclosing scope is older than the scope itself, so the walk
ends; a link to a newer one is never followed. -/
def lookup (store : Store) (scope : Nat) (name : String) : Option Value :=
  match store.scopes[scope]? with
  | none => none
  | some here =>
    match here.bindings.lookup name with
    | some value => some value
    | none =>
      match here.enclosing with
      | none => none
      | some outer => if outer < scope then store.lookup outer name else none
termination_by scope

/-- The meaning of a name that must have one. -/
def get (store : Store) (scope : Nat) (name : String) : Except RuntimeError Value :=
  match store.lookup scope name with
  | some value => .ok value
  | none => .error (.unbound name)

/-- A closure that differs from all others made in this store. -/
def newClosure (store : Store) (parameters : List String) (body : Block) (scope : Nat) :
    Closure × Store :=
  (⟨store.closures, parameters, body, scope⟩, { store with closures := store.closures + 1 })

@[simp] theorem size_push (store : Store) (enclosing : Option Nat) :
    (store.push enclosing).2.scopes.size = store.scopes.size + 1 := by
  simp [push]

/-- Binding opens no scope. -/
@[simp] theorem size_define (store : Store) (scope : Nat) (name : String) (value : Value) :
    (store.define scope name value).scopes.size = store.scopes.size := by
  simp [define]

@[simp] theorem size_defineAll (store : Store) (scope : Nat) (names : List String)
    (values : List Value) :
    (store.defineAll scope names values).scopes.size = store.scopes.size := by
  induction names generalizing store values with
  | nil => cases values <;> rfl
  | cons name names ih =>
    cases values with
    | nil => rfl
    | cons value values => rw [defineAll, ih, size_define]

/-- Opening a scope leaves every scope there was as it was. -/
theorem getElem?_push_of_lt {store : Store} {enclosing : Option Nat} {i : Nat}
    (old : i < store.scopes.size) : (store.push enclosing).2.scopes[i]? = store.scopes[i]? := by
  simp [push, Array.getElem?_push, Nat.ne_of_lt old]

@[simp] theorem getElem?_push_size (store : Store) (enclosing : Option Nat) :
    (store.push enclosing).2.scopes[store.scopes.size]? = some ⟨enclosing, []⟩ := by
  simp [push]

/-- A binding changes one scope. -/
theorem getElem?_define_of_ne {store : Store} {scope i : Nat} {name : String} {value : Value}
    (other : i ≠ scope) : (store.define scope name value).scopes[i]? = store.scopes[i]? := by
  simp [define, Array.getElem?_modify, Ne.symm other]

theorem getElem?_define_self (store : Store) (scope : Nat) (name : String) (value : Value) :
    (store.define scope name value).scopes[scope]? =
      store.scopes[scope]?.map fun old => { old with bindings := (name, value) :: old.bindings } := by
  simp [define, Array.getElem?_modify]

theorem getElem?_defineAll_of_ne {store : Store} {scope i : Nat} {names : List String}
    {values : List Value} (other : i ≠ scope) :
    (store.defineAll scope names values).scopes[i]? = store.scopes[i]? := by
  induction names generalizing store values with
  | nil => cases values <;> rfl
  | cons name names ih =>
    cases values with
    | nil => rfl
    | cons value values => rw [defineAll, ih, getElem?_define_of_ne other]

end Store

end ScopeScript
