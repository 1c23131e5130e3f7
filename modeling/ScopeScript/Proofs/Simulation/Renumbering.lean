import ScopeScript.Proofs.Simulation.Matched

namespace ScopeScript

/-- Functions that differ at most in their numbers. -/
structure Closure.Renumbered (left right : Closure) : Prop where
  parameters : right.parameters = left.parameters
  body : right.body = left.body
  scope : right.scope = left.scope

theorem Closure.Renumbered.refl (closure : Closure) : closure.Renumbered closure := ⟨rfl, rfl, rfl⟩

/-- The same link and the same meaning of every name, but for the numbers of functions. -/
structure Scope.Renumbered (left right : Scope) : Prop where
  enclosing : right.enclosing = left.enclosing
  bindings : ∀ name, Option.Rel (Value.Alike Closure.Renumbered) (left.bindings.lookup name)
    (right.bindings.lookup name)

theorem Scope.Renumbered.refl (scope : Scope) : scope.Renumbered scope :=
  ⟨rfl, fun _ => Value.Alike.option_refl Closure.Renumbered.refl _⟩

/-- Bindings of different names may be made in either order. -/
theorem Scope.Renumbered.swapped (scope : Scope) {name other : String}
    {value newValue second newSecond : Value} (different : name ≠ other)
    (here : value.Alike Closure.Renumbered newValue)
    (there : second.Alike Closure.Renumbered newSecond) :
    Scope.Renumbered ⟨scope.enclosing, (other, second) :: (name, value) :: scope.bindings⟩
      ⟨scope.enclosing, (name, newValue) :: (other, newSecond) :: scope.bindings⟩ := by
  refine ⟨rfl, fun asked => ?_⟩
  simp only [List.lookup_cons]
  by_cases isName : asked = name
  · subst isName
    have notOther : (asked == other) = false := beq_false_of_ne different
    simp only [notOther, beq_self_eq_true]
    exact .some here
  · have notName : (asked == name) = false := beq_false_of_ne isName
    by_cases isOther : asked = other
    · subst isOther
      simp only [notName, beq_self_eq_true]
      exact .some there
    · have notOther : (asked == other) = false := beq_false_of_ne isOther
      simp only [notName, notOther]
      exact Value.Alike.option_refl Closure.Renumbered.refl _

/-- The same current scope among the same scopes, but for the numbers of functions. -/
structure Machine.Renumbered (left right : Machine) : Prop where
  current : right.current = left.current
  scopes : ∀ i : Nat, Option.Rel Scope.Renumbered left.store.scopes[i]? right.store.scopes[i]?

theorem Store.define_swapped (store : Store) (scope : Nat) {name other : String}
    {value newValue second newSecond : Value} (different : name ≠ other)
    (here : value.Alike Closure.Renumbered newValue)
    (there : second.Alike Closure.Renumbered newSecond) (i : Nat) :
    Option.Rel Scope.Renumbered
      ((store.define scope name value).define scope other second).scopes[i]?
      ((store.define scope other newSecond).define scope name newValue).scopes[i]? := by
  by_cases target : i = scope
  · subst target
    simp only [Store.getElem?_define_self]
    cases store.scopes[i]? with
    | none => exact .none
    | some old => exact .some (.swapped old different here there)
  · simp only [Store.getElem?_define_of_ne target]
    cases store.scopes[i]? with
    | none => exact .none
    | some old => exact .some (.refl old)

section Matches

variable {code : Block → Block → Prop} {world : World}

theorem Closure.Matches.renumbered {left right after : Closure}
    (same : Closure.Matches code world left right) (renumbered : right.Renumbered after) :
    Closure.Matches code world left after where
  parameters := same.parameters.trans renumbered.parameters.symm
  body := renumbered.body ▸ same.body
  inside := same.inside
  scope := renumbered.scope.trans same.scope
  shown := same.shown

/-- Numbers of functions and the order of bindings do not count where machines correspond. -/
theorem Machine.Matches.renumbered {left right after : Machine}
    (same : Machine.Matches code world left right) (renumbered : right.Renumbered after) :
    Machine.Matches code world left after := by
  refine ⟨⟨same.size, ?_⟩, same.current, renumbered.current.trans same.currentImage⟩
  intro i bound
  obtain ⟨here, there, atLeft, atRight, scopes⟩ := same.scopes i bound
  have changes := renumbered.scopes (world.image i)
  rw [atRight] at changes
  cases atAfter : after.store.scopes[world.image i]? with
  | none =>
    rw [atAfter] at changes
    cases changes
  | some now =>
    rw [atAfter] at changes
    obtain ⟨enclosing, bindings⟩ := Option.rel_some_some.mp changes
    refine ⟨here, now, atLeft, rfl, enclosing ▸ scopes.enclosing, ?_⟩
    intro name seen
    exact Value.Alike.option_trans (scopes.bindings name seen) (bindings name)
      fun f g h matched changed => matched.renumbered changed

/-- Both evaluations come to their end on every machine, and leave the same but for the
numbers of functions. -/
def Evaluation.SameEffect (left right : Evaluation (Option Value)) : Prop :=
  ∀ machine, ∃ value other after otherAfter, left.perform machine = (.ok value, after) ∧
    right.perform machine = (.ok other, otherAfter) ∧ after.Renumbered otherAfter

/-- Only what the results are is lost. -/
theorem Matched.sameEffect {left right changed : Evaluation (Option Value)}
    (matched : Matched code world (Optional code) left right) (same : right.SameEffect changed) :
    Matched code world (fun _ _ _ => True) left changed := by
  intro before machine corresponding
  obtain ⟨later, grown, leaves, alike⟩ := matched before machine corresponding
  obtain ⟨value, other, after, otherAfter, ran, ranChanged, renumbered⟩ := same machine
  rw [ran] at leaves alike
  rw [ranChanged]
  refine ⟨later, grown, leaves.renumbered renumbered, ?_⟩
  generalize (left.perform before).1 = ending at alike
  cases alike with
  | ok values => exact .ok trivial

end Matches

end ScopeScript
