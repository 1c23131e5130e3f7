import ScopeScript.Proofs.Store.Chain

namespace ScopeScript

/-- What was done to a store so far. After it there are `count` scopes, numbered in the order of
their opening, and only these can be enclosed, bound in or asked. What a name means is told from
this alone. -/
inductive History : Nat → Type
  | nothing : History 0
  | opened {count : Nat} (before : History count) : History (count + 1)
  | enclosed {count : Nat} (before : History count) (outer : Fin count) : History (count + 1)
  | defined {count : Nat} (before : History count) (scope : Fin count) (name : String)
      (value : Value) : History count
  | asked {count : Nat} (before : History count) (scope : Fin count) (name : String) :
      History count

namespace History

/-- The store that is left. Asking for a name does nothing to it. -/
def store {count : Nat} : History count → Store
  | nothing => Store.empty
  | opened before => (before.store.push none).2
  | enclosed before outer => (before.store.push (some outer)).2
  | defined before scope name value => before.store.define scope name value
  | asked before _ _ => before.store

/-- Whether a name was ever bound in a scope. -/
def Defines {count : Nat} : History count → Nat → String → Prop
  | nothing, _, _ => False
  | opened before, owner, name => before.Defines owner name
  | enclosed before _, owner, name => before.Defines owner name
  | defined before scope key _, owner, name =>
    (owner = scope ∧ name = key) ∨ before.Defines owner name
  | asked before _ _, owner, name => before.Defines owner name

/-- The value to which a name was bound in a scope last, if it ever was. -/
def latest? {count : Nat} : History count → Nat → String → Option Value
  | nothing, _, _ => none
  | opened before, owner, name => before.latest? owner name
  | enclosed before _, owner, name => before.latest? owner name
  | defined before scope key value, owner, name =>
    if owner = scope ∧ name = key then some value else before.latest? owner name
  | asked before _ _, owner, name => before.latest? owner name

/-- A scope and those around it, from the inside out. -/
def chain {count : Nat} : History count → Nat → List Nat
  | nothing, _ => []
  | @opened count before, scope => if scope = count then [count] else before.chain scope
  | @enclosed count before outer, scope =>
    if scope = count then count :: before.chain outer else before.chain scope
  | defined before _ _ _, scope => before.chain scope
  | asked before _ _, scope => before.chain scope

variable {count : Nat}

/-- From `scope` outwards, `owner` comes before all other scopes in which the name
was ever bound. -/
def Reaches (history : History count) (scope : Nat) (name : String) (owner : Nat) : Prop :=
  ∃ nearer further, history.chain scope = nearer ++ owner :: further ∧
    ∀ inner ∈ nearer, ¬ history.Defines inner name

theorem latest?_eq_none_iff (history : History count) (owner : Nat) (name : String) :
    history.latest? owner name = none ↔ ¬ history.Defines owner name := by
  induction history with
  | nothing => simp [latest?, Defines]
  | opened before ih => exact ih
  | enclosed before outer ih => exact ih
  | defined before scope key value ih =>
    rw [latest?, Defines]
    by_cases here : owner = scope ∧ name = key
    · simp [here]
    · simp [here, ih]
  | asked before scope key ih => exact ih

/-- Scopes are numbered without gaps, so the next one to be opened gets the number
`count`. -/
@[simp] theorem size_store (history : History count) : history.store.scopes.size = count := by
  induction history with
  | nothing => rfl
  | opened before ih => rw [store, Store.size_push, ih]
  | enclosed before outer ih => rw [store, Store.size_push, ih]
  | defined before scope name value ih => rw [store, Store.size_define, ih]
  | asked before scope name ih => exact ih

theorem lt_size_store (history : History count) (scope : Fin count) :
    scope < history.store.scopes.size := by
  rw [size_store]
  exact scope.isLt

/-- A scope of the store binds a name to what it was bound to last. -/
theorem binding?_store (history : History count) (owner : Nat) (name : String) :
    history.store.binding? owner name = history.latest? owner name := by
  induction history with
  | nothing => rfl
  | opened before ih => rw [store, Store.binding?_push, ih, latest?]
  | enclosed before outer ih => rw [store, Store.binding?_push, ih, latest?]
  | defined before scope key value ih =>
    rw [store, Store.binding?_define (before.lt_size_store scope), ih, latest?]
  | asked before scope key ih => exact ih

/-- The links of the store are those of the history. -/
theorem chain_store (history : History count) (scope : Nat) :
    history.store.chain scope = history.chain scope := by
  induction history generalizing scope with
  | nothing => exact Store.chain_of_size_le (Nat.zero_le scope)
  | @opened count before ih =>
    rw [store, chain]
    split
    · rename_i new
      have number : scope = before.store.scopes.size := by rw [size_store, new]
      rw [number, Store.chain_push_none, size_store]
    · rename_i old
      rw [Store.chain_push_of_ne (by rwa [size_store]), ih]
  | @enclosed count before outer ih =>
    rw [store, chain]
    split
    · rename_i new
      have number : scope = before.store.scopes.size := by rw [size_store, new]
      rw [number, Store.chain_push_some (before.lt_size_store outer), ih, size_store]
    · rename_i old
      rw [Store.chain_push_of_ne (by rwa [size_store]), ih]
  | defined before target key value ih => rw [store, Store.chain_define, ih, chain]
  | asked before target key ih => exact ih scope

/-- What a name means is the latest binding in the first scope of the chain that
has one. -/
theorem lookup_store (history : History count) (scope : Nat) (name : String) :
    history.store.lookup scope name =
      (history.chain scope).findSome? fun owner => history.latest? owner name := by
  simp only [Store.lookup_eq_findSome?, chain_store, binding?_store]

theorem lookup_eq_some_iff (history : History count) (scope : Nat) (name : String)
    (value : Value) :
    history.store.lookup scope name = some value ↔
      ∃ owner, history.Reaches scope name owner ∧ history.latest? owner name = some value := by
  simp only [lookup_store, List.findSome?_eq_some_iff, Reaches, latest?_eq_none_iff]
  constructor
  · rintro ⟨nearer, owner, further, chain, latest, unbound⟩
    exact ⟨owner, ⟨nearer, further, chain, unbound⟩, latest⟩
  · rintro ⟨owner, ⟨nearer, further, chain, unbound⟩, latest⟩
    exact ⟨nearer, owner, further, chain, latest, unbound⟩

theorem lookup_eq_none_iff (history : History count) (scope : Nat) (name : String) :
    history.store.lookup scope name = none ↔
      ∀ owner ∈ history.chain scope, ¬ history.Defines owner name := by
  simp only [lookup_store, List.findSome?_eq_none_iff, latest?_eq_none_iff]

/-- A binding is seen from wherever its scope is reached, also from scopes that
were opened before it was made. -/
theorem lookup_defined {history : History count} {target : Fin count} {key : String}
    {scope : Nat} (reached : history.Reaches scope key target) (value : Value) :
    (history.defined target key value).store.lookup scope key = some value := by
  obtain ⟨nearer, further, split, unbound⟩ := reached
  rw [lookup_store, chain, split, List.findSome?_append]
  -- a nearer scope can only have the new binding
  cases found : nearer.findSome? fun owner =>
      (history.defined target key value).latest? owner key with
  | none => simp [latest?]
  | some other =>
    obtain ⟨inner, member, latest⟩ := List.exists_of_findSome?_eq_some found
    have old := (latest?_eq_none_iff history inner key).mpr (unbound inner member)
    simp only [latest?, old] at latest
    split at latest
    · exact latest.symm
    · cases latest

/-- Of the scopes up to the first one that binds a name, each is reached. -/
theorem reaches_of_mem {history : History count} {scope owner : Nat} {name : String}
    {nearer further : List Nat} (split : history.chain scope = nearer ++ further)
    (unbound : ∀ inner ∈ nearer, ¬ history.Defines inner name) (member : owner ∈ nearer) :
    history.Reaches scope name owner := by
  obtain ⟨before, behind, rfl⟩ := List.append_of_mem member
  refine ⟨before, behind ++ further, by simpa using split, fun inner near => ?_⟩
  exact unbound inner (List.mem_append_left _ near)

/-- From everywhere else nothing is seen of it. -/
theorem lookup_defined_of_not_reaches {history : History count} {target : Fin count}
    {key : String} {scope : Nat} {name : String}
    (unseen : ¬ (name = key ∧ history.Reaches scope key target)) (value : Value) :
    (history.defined target key value).store.lookup scope name =
      history.store.lookup scope name := by
  have kept {owner : Nat} (reached : history.Reaches scope name owner) :
      (history.defined target key value).latest? owner name = history.latest? owner name := by
    refine if_neg ?_
    rintro ⟨rfl, rfl⟩
    exact unseen ⟨rfl, reached⟩
  cases meaning : history.store.lookup scope name with
  | none =>
    have unbound := (lookup_eq_none_iff history scope name).mp meaning
    rw [lookup_store, List.findSome?_eq_none_iff]
    intro owner member
    rw [kept (reaches_of_mem (List.append_nil _).symm unbound member), latest?_eq_none_iff]
    exact unbound owner member
  | some old =>
    obtain ⟨owner, reached, latest⟩ := (lookup_eq_some_iff history scope name old).mp meaning
    obtain ⟨nearer, further, split, unbound⟩ := id reached
    rw [lookup_store, List.findSome?_eq_some_iff]
    refine ⟨nearer, owner, further, split, (kept reached).trans latest, fun inner near => ?_⟩
    rw [kept (reaches_of_mem split unbound near), latest?_eq_none_iff]
    exact unbound inner near

/-- What a name means in a scope is its latest binding in the nearest scope that
ever bound it, and it is unbound exactly where no scope of the chain ever bound
it. A new binding changes the meaning of its own name only, and only in the scopes
from which its scope is reached before any other that binds the name. -/
theorem get_eq_latest_of_nearest (history : History count) (scope : Nat) (name : String) :
    (∀ value, history.store.get scope name = .ok value ↔
      ∃ owner, history.Reaches scope name owner ∧ history.latest? owner name = some value) ∧
    (∀ error, history.store.get scope name = .error error ↔
      error = .unbound name ∧ ∀ owner ∈ history.chain scope, ¬ history.Defines owner name) ∧
    ∀ (target : Fin count) (key : String) (value : Value),
      (name = key ∧ history.Reaches scope key target →
        (history.defined target key value).store.get scope name = .ok value) ∧
      (¬ (name = key ∧ history.Reaches scope key target) →
        (history.defined target key value).store.get scope name =
          history.store.get scope name) := by
  refine ⟨fun value => ?_, fun error => ?_, fun target key value => ⟨?_, fun unseen => ?_⟩⟩
  · rw [← lookup_eq_some_iff, Store.get]
    cases history.store.lookup scope name <;> simp
  · rw [← lookup_eq_none_iff, Store.get]
    cases history.store.lookup scope name <;> simp [eq_comm]
  · rintro ⟨rfl, reached⟩
    rw [Store.get, lookup_defined reached value]
  · rw [Store.get, lookup_defined_of_not_reaches unseen value, Store.get]

/-- A global scope and a scope inside it. -/
def globalAndLocal : History 2 := nothing.opened.enclosed 0

/-- A scope sees what is bound around it later, unless it has a binding of its
own. -/
theorem get_eq_latest_of_nearest_of_late_binding :
    (globalAndLocal.defined 0 "late" (.integer 9)).store.get 1 "late" = .ok (.integer 9) ∧
    ((globalAndLocal.defined 1 "late" (.boolean true)).defined 0 "late" (.integer 9)).store.get 1
      "late" = (globalAndLocal.defined 1 "late" (.boolean true)).store.get 1 "late" := by
  have reached : globalAndLocal.Reaches 1 "late" 0 :=
    ⟨[1], [], rfl, fun inner _ => by simp [globalAndLocal, Defines]⟩
  have shadowed : ¬ (globalAndLocal.defined 1 "late" (.boolean true)).Reaches 1 "late" 0 := by
    rintro ⟨nearer, further, split, unbound⟩
    change [1, 0] = nearer ++ 0 :: further at split
    rcases List.cons_eq_append_iff.mp split with ⟨-, wrong⟩ | ⟨behind, rfl, -⟩
    · cases wrong
    · exact unbound 1 List.mem_cons_self (.inl ⟨rfl, rfl⟩)
  constructor
  · exact ((get_eq_latest_of_nearest globalAndLocal 1 "late").2.2 0 "late" (.integer 9)).1
      ⟨rfl, reached⟩
  · exact ((get_eq_latest_of_nearest _ 1 "late").2.2 0 "late" (.integer 9)).2
      fun both => shadowed both.2

end History

end ScopeScript
