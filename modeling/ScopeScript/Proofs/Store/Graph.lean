import Mathlib.Data.List.Range
import ScopeScript.Proofs.Store.Chain

namespace ScopeScript

/-- A value that is no function, or one of the closures that were made. -/
def Value.Known (made : List Closure) (value : Value) : Prop :=
  ∀ closure, value = .function closure → closure ∈ made

/-- What is known stays known when more closures are made. -/
theorem Value.Known.mono {made more : List Closure} {value : Value} (known : value.Known made) :
    value.Known (made ++ more) :=
  fun closure is => List.mem_append_left more (known closure is)

theorem Value.known_integer (made : List Closure) (value : Int64) :
    (Value.integer value).Known made := by
  intro closure is
  cases is

theorem Value.known_boolean (made : List Closure) (value : Bool) :
    (Value.boolean value).Known made := by
  intro closure is
  cases is

theorem Value.known_function {made : List Closure} {closure : Closure} (member : closure ∈ made) :
    (Value.function closure).Known made := by
  intro other is
  cases is
  exact member

namespace Store

/-- Some name was bound to the closure in some scope, whether another binding hides it or not. -/
def Binds (store : Store) (closure : Closure) : Prop :=
  ∃ (i : Nat) (scope : Scope) (name : String), store.scopes[i]? = some scope ∧
    (name, Value.function closure) ∈ scope.bindings

/-- The first scope is the global one, and every other scope is enclosed by an older one. The
closures made so far are listed and numbered in the order of their making; each captured a scope of
the store, and nothing else is bound anywhere. -/
structure Sound (made : List Closure) (store : Store) : Prop where
  root : store.scopes[0]?.map Scope.enclosing = some none
  linked : ∀ i, i + 1 < store.scopes.size →
    ∃ outer ≤ i, store.scopes[i + 1]?.map Scope.enclosing = some (some outer)
  counted : store.closures = made.length
  numbered : made.map Closure.id = List.range made.length
  captured : ∀ closure ∈ made, closure.scope < store.scopes.size
  bound : ∀ closure, store.Binds closure → closure ∈ made

/-- Every scope there was is still enclosed by the same one. -/
structure LinksKept (before after : Store) : Prop where
  opened : before.scopes.size ≤ after.scopes.size
  links : ∀ i < before.scopes.size,
    after.scopes[i]?.map Scope.enclosing = before.scopes[i]?.map Scope.enclosing

theorem LinksKept.refl (store : Store) : store.LinksKept store :=
  ⟨Nat.le_refl _, fun _ _ => rfl⟩

/-- Scopes that are opened in between come on top, so the older ones are among those of the second
step. -/
theorem LinksKept.trans {before between after : Store} (first : before.LinksKept between)
    (second : between.LinksKept after) : before.LinksKept after := by
  refine ⟨Nat.le_trans first.opened second.opened, fun i old => ?_⟩
  rw [second.links i (Nat.lt_of_lt_of_le old first.opened), first.links i old]

/-- A binding changes no link, in whatever scope it is made. -/
theorem enclosing_define (store : Store) (scope : Nat) (name : String) (value : Value) (i : Nat) :
    (store.define scope name value).scopes[i]?.map Scope.enclosing =
      store.scopes[i]?.map Scope.enclosing := by
  by_cases here : i = scope
  · rw [here, getElem?_define_self, Option.map_map]
    rfl
  · rw [getElem?_define_of_ne here]

theorem linksKept_define (store : Store) (scope : Nat) (name : String) (value : Value) :
    store.LinksKept (store.define scope name value) :=
  ⟨Nat.le_of_eq (size_define store scope name value).symm,
    fun i _ => enclosing_define store scope name value i⟩

/-- A scope that is opened gets a link of its own and changes no other. -/
theorem linksKept_push (store : Store) (enclosing : Option Nat) :
    store.LinksKept (store.push enclosing).2 := by
  refine ⟨?_, fun i old => by rw [getElem?_push_of_lt old]⟩
  rw [size_push]
  exact Nat.le_succ _

theorem linksKept_defineAll (store : Store) (scope : Nat) (names : List String)
    (values : List Value) : store.LinksKept (store.defineAll scope names values) := by
  induction names generalizing store values with
  | nil => cases values <;> exact .refl store
  | cons name names ih =>
    cases values with
    | nil => exact .refl store
    | cons value values => exact (linksKept_define store scope name value).trans (ih _ values)

theorem linksKept_newClosure (store : Store) (parameters : List String) (body : Block)
    (scope : Nat) : store.LinksKept (store.newClosure parameters body scope).2 :=
  ⟨Nat.le_refl _, fun _ _ => rfl⟩

/-- A new binding is the only thing that is bound in addition. -/
theorem binds_define {store : Store} {scope : Nat} {name : String} {value : Value}
    {closure : Closure} (binds : (store.define scope name value).Binds closure) :
    value = .function closure ∨ store.Binds closure := by
  obtain ⟨i, here, key, found, member⟩ := binds
  by_cases target : i = scope
  · rw [target, getElem?_define_self] at found
    obtain ⟨old, known, rfl⟩ := Option.map_eq_some_iff.mp found
    rcases List.mem_cons.mp member with new | earlier
    · exact .inl (Prod.mk.inj new).2.symm
    · exact .inr ⟨scope, old, key, known, earlier⟩
  · rw [getElem?_define_of_ne target] at found
    exact .inr ⟨i, here, key, found, member⟩

/-- A scope that is opened binds nothing yet. -/
theorem binds_push {store : Store} {enclosing : Option Nat} {closure : Closure}
    (binds : (store.push enclosing).2.Binds closure) : store.Binds closure := by
  obtain ⟨i, here, key, found, member⟩ := binds
  have opened := (Array.getElem?_eq_some_iff.mp found).1
  rw [size_push] at opened
  rcases Nat.lt_succ_iff_lt_or_eq.mp opened with old | new
  · rw [getElem?_push_of_lt old] at found
    exact ⟨i, here, key, found, member⟩
  · rw [new, getElem?_push_size] at found
    cases found
    cases member

namespace Sound

variable {made : List Closure} {store : Store}

theorem opened (sound : store.Sound made) : 0 < store.scopes.size := by
  obtain ⟨scope, found, _⟩ := Option.map_eq_some_iff.mp sound.root
  exact (Array.getElem?_eq_some_iff.mp found).1

theorem define (sound : store.Sound made) (scope : Nat) (name : String) {value : Value}
    (known : value.Known made) : (store.define scope name value).Sound made where
  root := by rw [enclosing_define, sound.root]
  linked i opened := by
    rw [enclosing_define]
    exact sound.linked i (by rwa [size_define] at opened)
  counted := sound.counted
  numbered := sound.numbered
  captured closure member := by
    rw [size_define]
    exact sound.captured closure member
  bound closure binds := (binds_define binds).elim (known closure) (sound.bound closure)

theorem push (sound : store.Sound made) {outer : Nat} (opened : outer < store.scopes.size) :
    (store.push (some outer)).2.Sound made where
  root := by rw [getElem?_push_of_lt sound.opened, sound.root]
  linked i within := by
    rw [size_push] at within
    rcases Nat.lt_succ_iff_lt_or_eq.mp within with old | new
    · rw [getElem?_push_of_lt old]
      exact sound.linked i old
    · rw [new, getElem?_push_size]
      exact ⟨outer, by omega, rfl⟩
  counted := sound.counted
  numbered := sound.numbered
  captured closure member := by
    rw [size_push]
    exact Nat.lt_succ_of_lt (sound.captured closure member)
  bound closure binds := sound.bound closure (binds_push binds)

theorem defineAll (sound : store.Sound made) (scope : Nat) (names : List String)
    {values : List Value} (known : ∀ value ∈ values, value.Known made) :
    (store.defineAll scope names values).Sound made := by
  induction names generalizing store values with
  | nil => cases values <;> exact sound
  | cons name names ih =>
    cases values with
    | nil => exact sound
    | cons value values =>
      obtain ⟨first, rest⟩ := List.forall_mem_cons.mp known
      exact ih (sound.define scope name first) rest

/-- A closure that is made gets the next number. -/
theorem newClosure (sound : store.Sound made) (parameters : List String) (body : Block)
    {scope : Nat} (opened : scope < store.scopes.size) :
    (store.newClosure parameters body scope).2.Sound
      (made ++ [(store.newClosure parameters body scope).1]) where
  root := sound.root
  linked := sound.linked
  counted := by
    rw [List.length_append, ← sound.counted]
    rfl
  numbered := by
    rw [List.map_append, sound.numbered, List.length_append, List.length_singleton,
      List.range_succ, ← sound.counted]
    rfl
  captured closure member := by
    rcases List.mem_append.mp member with old | new
    · exact sound.captured closure old
    · cases List.mem_singleton.mp new
      exact opened
  bound closure binds := List.mem_append_left _ (sound.bound closure binds)

/-- Closures are told apart by their numbers. -/
theorem nodup_ids (sound : store.Sound made) : (made.map Closure.id).Nodup := by
  rw [sound.numbered]
  exact List.nodup_range

/-- Whatever a name means was bound to it. -/
theorem lookup_known (sound : store.Sound made) {scope : Nat} {name : String} {value : Value}
    (found : store.lookup scope name = some value) : value.Known made := by
  rintro closure rfl
  rw [lookup_eq_findSome?] at found
  obtain ⟨owner, _, bound⟩ := List.exists_of_findSome?_eq_some found
  obtain ⟨here, known, meaning⟩ := Option.bind_eq_some_iff.mp bound
  refine sound.bound closure ⟨owner, here, name, known, ?_⟩
  obtain ⟨before, behind, split, _⟩ := List.lookup_eq_some_iff.mp meaning
  rw [split]
  exact List.mem_append_right before List.mem_cons_self

/-- From a scope outwards each scope is older than the one before, the links lead on from each
to the next, and the last one is the global scope. -/
theorem chain_spec (sound : store.Sound made) {scope : Nat} (opened : scope < store.scopes.size) :
    (store.chain scope).head? = some scope ∧ (store.chain scope).getLast? = some 0 ∧
      (store.chain scope).Pairwise (· > ·) ∧
      (store.chain scope).IsChain fun inner outer =>
        store.scopes[inner]?.map Scope.enclosing = some (some outer) := by
  induction scope using Nat.strongRecOn with
  | ind scope outwards =>
    cases scope with
    | zero =>
      rw [chain, sound.root]
      simp
    | succ i =>
      obtain ⟨outer, older, link⟩ := sound.linked i opened
      obtain ⟨head, last, sorted, links⟩ := outwards outer (by omega) (by omega)
      obtain ⟨rest, split⟩ : ∃ rest, store.chain outer = outer :: rest := by
        cases here : store.chain outer with
        | nil => simp [here] at head
        | cons first rest => exact ⟨rest, by rw [here, List.head?_cons] at head; cases head; rfl⟩
      rw [chain, link]
      simp only [Nat.lt_succ_of_le older, if_true]
      rw [split] at last sorted links ⊢
      refine ⟨rfl, by rw [List.getLast?_cons_cons, last], ?_, List.isChain_cons_cons.mpr ⟨link, links⟩⟩
      refine List.pairwise_cons.mpr ⟨?_, sorted⟩
      intro further member
      rcases List.mem_cons.mp member with rfl | inside
      · omega
      · have below := List.rel_of_pairwise_cons sorted inside
        omega

end Sound

end Store

end ScopeScript
