import ScopeScript.Value.Store

namespace ScopeScript.Store

/-- The scopes that are asked in turn for a name that is looked up in a scope, the scope itself
first. They depend on the links alone. -/
def chain (store : Store) (scope : Nat) : List Nat :=
  match store.scopes[scope]?.map Scope.enclosing with
  | none => []
  | some none => [scope]
  | some (some outer) => if outer < scope then scope :: store.chain outer else [scope]
termination_by scope

/-- What a scope itself binds a name to. -/
def binding? (store : Store) (scope : Nat) (name : String) : Option Value :=
  store.scopes[scope]?.bind fun here => here.bindings.lookup name

/-- A name means what the first scope of the chain that binds it binds it to. -/
theorem lookup_eq_findSome? (store : Store) (scope : Nat) (name : String) :
    store.lookup scope name =
      (store.chain scope).findSome? fun owner => store.binding? owner name := by
  induction scope using Nat.strongRecOn with
  | ind scope outwards =>
    rw [lookup, chain]
    cases found : store.scopes[scope]? with
    | none => rfl
    | some here =>
      have own : store.binding? scope name = here.bindings.lookup name := by simp [binding?, found]
      obtain ⟨enclosing, bindings⟩ := here
      cases bound : bindings.lookup name with
      | some value => cases enclosing <;> simp [own, bound]; split <;> simp [own, bound]
      | none =>
        cases enclosing with
        | none => simp [own, bound]
        | some outer =>
          by_cases older : outer < scope
          · simp [own, bound, older, outwards outer older]
          · simp [own, bound, older]

/-- Stores with the same links have the same chains. -/
theorem chain_congr {before after : Store} {scope : Nat}
    (links : ∀ i ≤ scope,
      after.scopes[i]?.map Scope.enclosing = before.scopes[i]?.map Scope.enclosing) :
    after.chain scope = before.chain scope := by
  induction scope using Nat.strongRecOn with
  | ind scope outwards =>
    rw [chain, chain, links scope (Nat.le_refl scope)]
    split
    · rfl
    · rfl
    · split
      · rename_i older
        rw [outwards _ older fun i within => links i (Nat.le_trans within (Nat.le_of_lt older))]
      · rfl

theorem chain_of_size_le {store : Store} {scope : Nat} (unopened : store.scopes.size ≤ scope) :
    store.chain scope = [] := by
  rw [chain, Array.getElem?_eq_none unopened, Option.map_none]

theorem chain_push_of_ne {store : Store} {enclosing : Option Nat} {scope : Nat}
    (other : scope ≠ store.scopes.size) :
    (store.push enclosing).2.chain scope = store.chain scope := by
  rcases Nat.lt_or_gt_of_ne other with old | unopened
  · exact chain_congr fun i within => by rw [getElem?_push_of_lt (Nat.lt_of_le_of_lt within old)]
  · rw [chain_of_size_le (Nat.le_of_lt unopened), chain_of_size_le (by rw [size_push]; exact unopened)]

@[simp] theorem chain_push_none (store : Store) :
    (store.push none).2.chain store.scopes.size = [store.scopes.size] := by
  rw [chain, getElem?_push_size, Option.map_some]

/-- The chain of a new scope goes on with the chain of the scope that encloses it. -/
theorem chain_push_some {store : Store} {outer : Nat} (opened : outer < store.scopes.size) :
    (store.push (some outer)).2.chain store.scopes.size =
      store.scopes.size :: store.chain outer := by
  rw [chain, getElem?_push_size, Option.map_some]
  simp only [opened, if_true]
  rw [chain_push_of_ne (Nat.ne_of_lt opened)]

/-- Binding a name leaves all chains as they are. -/
@[simp] theorem chain_define (store : Store) (target : Nat) (key : String) (value : Value)
    (scope : Nat) : (store.define target key value).chain scope = store.chain scope := by
  refine chain_congr fun i _ => ?_
  by_cases here : i = target
  · rw [here, getElem?_define_self, Option.map_map]
    rfl
  · rw [getElem?_define_of_ne here]

/-- A new scope binds nothing, and the scopes there were bind what they bound. -/
@[simp] theorem binding?_push (store : Store) (enclosing : Option Nat) (scope : Nat)
    (name : String) : (store.push enclosing).2.binding? scope name = store.binding? scope name := by
  rcases Nat.lt_trichotomy scope store.scopes.size with old | rfl | unopened
  · rw [binding?, binding?, getElem?_push_of_lt old]
  · rw [binding?, binding?, getElem?_push_size, Array.getElem?_eq_none (Nat.le_refl _)]
    rfl
  · rw [binding?, binding?, Array.getElem?_eq_none (by rw [size_push]; exact unopened),
      Array.getElem?_eq_none (Nat.le_of_lt unopened)]

/-- A binding counts for one name in one scope. -/
theorem binding?_define {store : Store} {target : Nat} (opened : target < store.scopes.size)
    (key : String) (value : Value) (scope : Nat) (name : String) :
    (store.define target key value).binding? scope name =
      if scope = target ∧ name = key then some value else store.binding? scope name := by
  by_cases here : scope = target
  · subst here
    rw [binding?, binding?, getElem?_define_self, Array.getElem?_eq_getElem opened]
    by_cases same : name = key
    · simp [same]
    · simp [same, List.lookup_cons, beq_false_of_ne same]
  · simp [binding?, getElem?_define_of_ne here, here]

/-- A name means what it was just bound to in the same scope. -/
theorem lookup_define_self {store : Store} {scope : Nat} (opened : scope < store.scopes.size)
    (name : String) (value : Value) :
    (store.define scope name value).lookup scope name = some value := by
  rw [lookup, getElem?_define_self, Array.getElem?_eq_getElem opened]
  simp

/-- What a scope itself binds a name to is what the name means there. -/
theorem lookup_of_binding? {store : Store} {scope : Nat} {name : String} {value : Value}
    (bound : store.binding? scope name = some value) : store.lookup scope name = some value := by
  obtain ⟨here, found, meaning⟩ := Option.bind_eq_some_iff.mp bound
  rw [lookup, found]
  simp only [meaning]

theorem binding?_defineAll_of_not_mem {store : Store} {scope : Nat}
    (opened : scope < store.scopes.size) {names : List String} {name : String}
    (other : name ∉ names) (values : List Value) :
    (store.defineAll scope names values).binding? scope name = store.binding? scope name := by
  induction names generalizing store values with
  | nil => cases values <;> rfl
  | cons key keys ih =>
    cases values with
    | nil => rfl
    | cons value values =>
      rw [defineAll, ih (by rwa [size_define]) (List.not_mem_of_not_mem_cons other),
        binding?_define opened, if_neg fun same => List.ne_of_not_mem_cons other same.2]

/-- A name means the value that stands in its place, unless it is bound once more behind it. -/
theorem lookup_defineAll {store : Store} {scope : Nat} (opened : scope < store.scopes.size)
    {before behind : List String} {first more : List Value} {name : String} (value : Value)
    (place : before.length = first.length) (other : name ∉ behind) :
    (store.defineAll scope (before ++ name :: behind) (first ++ value :: more)).lookup scope name =
      some value := by
  induction before generalizing store first with
  | nil =>
    rw [List.length_eq_zero_iff.mp place.symm]
    refine lookup_of_binding? ?_
    rw [List.nil_append, List.nil_append, defineAll,
      binding?_defineAll_of_not_mem (by rwa [size_define]) other, binding?_define opened,
      if_pos ⟨rfl, rfl⟩]
  | cons key keys ih =>
    cases first with
    | nil => cases place
    | cons earlier values =>
      exact ih (by rwa [size_define]) (Nat.succ.inj place)

end ScopeScript.Store
