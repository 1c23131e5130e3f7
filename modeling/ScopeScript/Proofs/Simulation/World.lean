import Mathlib.Data.List.Forall2
import ScopeScript.Proofs.Evaluation.Alike
import ScopeScript.Proofs.Evaluation.Frame
import ScopeScript.Proofs.Program.Names

namespace ScopeScript

/-- How the scopes of one run correspond to those of another. Every scope on the left has
an image on the right, in the order of opening; the right may have scopes besides. Two
corresponding scopes agree on the names that the scope `sees`. -/
structure World where
  size : Nat
  image : Nat → Nat
  sees : Nat → String → Prop
  current : Nat
  inside : current < size
  rising : ∀ {i j : Nat}, i < j → j < size → image i < image j

namespace World

/-- The text with these names may run in the current scope. -/
def Shows (world : World) (names : List String) : Prop :=
  ∀ name ∈ names, world.sees world.current name

/-- Nothing is changed about the scopes that correspond already. -/
structure Extends (small large : World) : Prop where
  size : small.size ≤ large.size
  image : ∀ i < small.size, large.image i = small.image i
  sees : ∀ i < small.size, large.sees i = small.sees i

/-- The same current scope in an extended world. -/
structure Later (before after : World) : Prop extends before.Extends after where
  current : after.current = before.current

theorem Extends.refl (world : World) : world.Extends world :=
  ⟨Nat.le_refl _, fun _ _ => rfl, fun _ _ => rfl⟩

theorem Extends.trans {small middle large : World} (first : small.Extends middle)
    (second : middle.Extends large) : small.Extends large := by
  refine ⟨Nat.le_trans first.size second.size, ?_, ?_⟩
  · intro i old
    rw [second.image i (Nat.lt_of_lt_of_le old first.size), first.image i old]
  · intro i old
    rw [second.sees i (Nat.lt_of_lt_of_le old first.size), first.sees i old]

theorem Later.refl (world : World) : world.Later world := ⟨.refl world, rfl⟩

theorem Later.trans {before between after : World} (first : before.Later between)
    (second : between.Later after) : before.Later after :=
  ⟨first.toExtends.trans second.toExtends, second.current.trans first.current⟩

/-- Names that were seen in the current scope are still seen there. -/
theorem Later.shows {before after : World} (later : before.Later after) {names : List String}
    (shown : before.Shows names) : after.Shows names := by
  intro name member
  rw [later.current, later.sees _ before.inside]
  exact shown name member

theorem Shows.left {world : World} {names more : List String} (shown : world.Shows (names ++ more)) :
    world.Shows names :=
  fun name member => shown name (List.mem_append_left more member)

theorem Shows.right {world : World} {names more : List String} (shown : world.Shows (names ++ more)) :
    world.Shows more :=
  fun name member => shown name (List.mem_append_right names member)

/-- Images keep the order of scopes, so no two scopes share one. -/
theorem image_ne (world : World) {i j : Nat} (different : i ≠ j) (hi : i < world.size)
    (hj : j < world.size) : world.image i ≠ world.image j := by
  rcases Nat.lt_or_gt_of_ne different with lower | upper
  · exact Nat.ne_of_lt (world.rising lower hj)
  · exact (Nat.ne_of_lt (world.rising upper hi)).symm

/-- The world after a scope was opened on both sides and entered. -/
def opened (world : World) (fresh : Nat) (above : ∀ i < world.size, world.image i < fresh)
    (seen : String → Prop) : World where
  size := world.size + 1
  image i := if i = world.size then fresh else world.image i
  sees i := if i = world.size then seen else world.sees i
  current := world.size
  inside := Nat.lt_succ_self _
  rising := by
    intro i j lower bound
    have old : i ≠ world.size := by omega
    rw [if_neg old]
    split
    · exact above i (by omega)
    · exact world.rising lower (by omega)

@[simp] theorem opened_image_size (world : World) (fresh : Nat)
    (above : ∀ i < world.size, world.image i < fresh) (seen : String → Prop) :
    (world.opened fresh above seen).image world.size = fresh :=
  if_pos rfl

/-- A scope that is opened on both sides is one more pair of scopes. -/
theorem extends_opened (world : World) (fresh : Nat)
    (above : ∀ i < world.size, world.image i < fresh) (seen : String → Prop) :
    world.Extends (world.opened fresh above seen) := by
  refine ⟨Nat.le_succ _, ?_, ?_⟩ <;> intro i old <;> exact if_neg (Nat.ne_of_lt old)

/-- The same world seen from another scope. -/
def enter (world : World) (scope : Nat) (inside : scope < world.size) : World :=
  { world with current := scope, inside := inside }

theorem extends_enter (world : World) (scope : Nat) (inside : scope < world.size) :
    world.Extends (world.enter scope inside) :=
  ⟨Nat.le_refl _, fun _ _ => rfl, fun _ _ => rfl⟩

end World

/-- Functions with the same parameters and corresponding bodies that captured
corresponding scopes, in which the text of the left one may run. -/
structure Closure.Matches (code : Block → Block → Prop) (world : World)
    (left right : Closure) : Prop where
  parameters : left.parameters = right.parameters
  body : code left.body right.body
  inside : left.scope < world.size
  scope : right.scope = world.image left.scope
  shown : ∀ name ∈ Block.names left.body, world.sees left.scope name

/-- Values that correspond in a world. -/
abbrev Value.Matches (code : Block → Block → Prop) (world : World) : Value → Value → Prop :=
  Value.Alike (Closure.Matches code world)

/-- The links correspond, and no name is seen here and hidden behind the link. What is seen
is bound to corresponding values, or bound on neither side. -/
structure Scope.Matches (code : Block → Block → Prop) (world : World) (i : Nat)
    (left right : Scope) : Prop where
  enclosing : left.enclosing = none ∧ right.enclosing = none ∨
    ∃ outer < i, left.enclosing = some outer ∧ right.enclosing = some (world.image outer) ∧
      ∀ name, world.sees i name → world.sees outer name
  bindings : ∀ name, world.sees i name →
    Option.Rel (Value.Matches code world) (left.bindings.lookup name) (right.bindings.lookup name)

structure Store.Matches (code : Block → Block → Prop) (world : World)
    (left right : Store) : Prop where
  size : left.scopes.size = world.size
  scopes : ∀ i < world.size, ∃ here there, left.scopes[i]? = some here ∧
    right.scopes[world.image i]? = some there ∧ Scope.Matches code world i here there

/-- The stores correspond, and so do the current scopes. -/
structure Machine.Matches (code : Block → Block → Prop) (world : World)
    (left right : Machine) : Prop extends Store.Matches code world left.store right.store where
  current : left.current = world.current
  currentImage : right.current = world.image world.current

variable {code : Block → Block → Prop} {world : World}

/-- Closures that captured corresponding scopes have captured these for good. -/
theorem Closure.Matches.mono {large : World} {left right : Closure}
    (same : Closure.Matches code world left right) (extended : world.Extends large) :
    Closure.Matches code large left right := by
  refine ⟨same.parameters, same.body, Nat.lt_of_lt_of_le same.inside extended.size, ?_, ?_⟩
  · rw [extended.image _ same.inside, same.scope]
  · rw [extended.sees _ same.inside]
    exact same.shown

theorem Value.Alike.extend {large : World} {left right : Value}
    (same : Value.Matches code world left right) (extended : world.Extends large) :
    Value.Matches code large left right :=
  same.mono fun _ _ captured => captured.mono extended

/-- An older scope sees in a larger world what it saw before. -/
theorem Scope.Matches.mono {large : World} {i : Nat} {left right : Scope}
    (same : Scope.Matches code world i left right) (extended : world.Extends large)
    (old : i < world.size) : Scope.Matches code large i left right := by
  refine ⟨?_, ?_⟩
  · rcases same.enclosing with ends | ⟨outer, lower, here, there, seen⟩
    · exact Or.inl ends
    · have outerOld : outer < world.size := Nat.lt_trans lower old
      refine Or.inr ⟨outer, lower, here, ?_, ?_⟩
      · rw [extended.image _ outerOld, there]
      · rw [extended.sees _ old, extended.sees _ outerOld]
        exact seen
  · rw [extended.sees _ old]
    intro name seen
    exact Value.Alike.option_mono (same.bindings name seen) fun _ _ captured =>
      captured.mono extended

namespace Store.Matches

variable {left right : Store}

/-- The image of a scope is a scope of the other store. -/
theorem image_lt (same : Store.Matches code world left right) :
    ∀ i < world.size, world.image i < right.scopes.size := by
  intro i bound
  obtain ⟨here, there, _, atImage, _⟩ := same.scopes i bound
  exact (Array.getElem?_eq_some_iff.mp atImage).1

/-- A seen name means corresponding values in corresponding scopes. -/
theorem lookup (same : Store.Matches code world left right) {name : String} (i : Nat)
    (bound : i < world.size) (seen : world.sees i name) :
    Option.Rel (Value.Matches code world) (left.lookup i name)
      (right.lookup (world.image i) name) := by
  induction i using Nat.strongRecOn with
  | _ i ih =>
    obtain ⟨here, there, atLeft, atRight, scopes⟩ := same.scopes i bound
    have bindings := scopes.bindings name seen
    unfold Store.lookup
    rw [atLeft, atRight]
    cases leftBinding : here.bindings.lookup name with
    | some value =>
      rw [leftBinding] at bindings
      cases rightBinding : there.bindings.lookup name with
      | none => simp [rightBinding] at bindings
      | some other =>
        rw [rightBinding] at bindings
        simpa only [leftBinding, rightBinding] using bindings
    | none =>
      rw [leftBinding] at bindings
      cases rightBinding : there.bindings.lookup name with
      | some other => simp [rightBinding] at bindings
      | none =>
        simp only [leftBinding, rightBinding]
        rcases scopes.enclosing with ⟨leftEnd, rightEnd⟩ |
          ⟨outer, lower, leftLink, rightLink, outerSees⟩
        · rw [leftEnd, rightEnd]
          exact .none
        · have older := world.rising lower bound
          have next := ih outer lower (Nat.lt_trans lower bound) (outerSees name seen)
          simpa only [leftLink, rightLink, if_pos lower, if_pos older] using next

theorem enter (same : Store.Matches code world left right) (scope : Nat)
    (inside : scope < world.size) : Store.Matches code (world.enter scope inside) left right := by
  refine ⟨same.size, ?_⟩
  intro i bound
  obtain ⟨here, there, atLeft, atRight, scopes⟩ := same.scopes i bound
  exact ⟨here, there, atLeft, atRight, scopes.mono (world.extends_enter scope inside) bound⟩

/-- Only what the scopes are on the right counts, and only up to the scopes there were. -/
theorem right_kept {after : Store} (same : Store.Matches code world left right)
    (kept : ∀ i < right.scopes.size, after.scopes[i]? = right.scopes[i]?) :
    Store.Matches code world left after := by
  refine ⟨same.size, ?_⟩
  intro i bound
  obtain ⟨here, there, atLeft, atRight, scopes⟩ := same.scopes i bound
  exact ⟨here, there, atLeft, (kept _ (same.image_lt i bound)).trans atRight, scopes⟩

/-- The same name is bound in corresponding scopes, so both sides hide the same. -/
theorem define (same : Store.Matches code world left right) {scope : Nat} (name : String)
    {value other : Value} (bound : scope < world.size)
    (values : Value.Matches code world value other) :
    Store.Matches code world (left.define scope name value)
      (right.define (world.image scope) name other) := by
  refine ⟨by simpa using same.size, ?_⟩
  intro i inside
  obtain ⟨here, there, atLeft, atRight, scopes⟩ := same.scopes i inside
  by_cases target : i = scope
  · subst target
    refine ⟨{ here with bindings := (name, value) :: here.bindings },
      { there with bindings := (name, other) :: there.bindings }, ?_, ?_, scopes.enclosing, ?_⟩
    · rw [Store.getElem?_define_self, atLeft]
      rfl
    · rw [Store.getElem?_define_self, atRight]
      rfl
    · intro y seen
      simp only [List.lookup_cons]
      split
      · exact .some values
      · exact scopes.bindings y seen
  · refine ⟨here, there, ?_, ?_, scopes⟩
    · rw [Store.getElem?_define_of_ne target, atLeft]
    · rw [Store.getElem?_define_of_ne (world.image_ne target inside bound), atRight]

theorem defineAll (same : Store.Matches code world left right) {scope : Nat} (names : List String)
    {values others : List Value} (bound : scope < world.size)
    (alike : List.Forall₂ (Value.Matches code world) values others) :
    Store.Matches code world (left.defineAll scope names values)
      (right.defineAll (world.image scope) names others) := by
  induction names generalizing left right values others with
  | nil => simpa only [Store.defineAll] using same
  | cons name names ih =>
    cases alike with
    | nil => simpa only [Store.defineAll] using same
    | cons first more =>
      simp only [Store.defineAll]
      exact ih (same.define name bound first) more

/-- A scope opened on both sides in corresponding scopes may hide names that the scope
around it sees, and may not see more. -/
theorem push (same : Store.Matches code world left right) {outer : Nat} (bound : outer < world.size)
    {seen : String → Prop} (narrower : ∀ name, seen name → world.sees outer name) :
    Store.Matches code (world.opened right.scopes.size same.image_lt seen)
      (left.push (some outer)).2 (right.push (some (world.image outer))).2 := by
  have extended := world.extends_opened right.scopes.size same.image_lt seen
  refine ⟨by rw [Store.size_push, same.size]; rfl, ?_⟩
  intro i inside
  by_cases newest : i = world.size
  · subst newest
    refine ⟨⟨some outer, []⟩, ⟨some (world.image outer), []⟩, ?_, ?_, Or.inr ?_, ?_⟩
    · rw [← same.size, Store.getElem?_push_size]
    · rw [World.opened_image_size, Store.getElem?_push_size]
    · refine ⟨outer, bound, rfl, ?_, ?_⟩
      · rw [extended.image outer bound]
      · rw [extended.sees outer bound]
        simpa only [World.opened, if_true] using narrower
    · exact fun name _ => .none
  · have old : i < world.size := by
      simp only [World.opened] at inside
      omega
    obtain ⟨here, there, atLeft, atRight, scopes⟩ := same.scopes i old
    refine ⟨here, there, ?_, ?_, scopes.mono extended old⟩
    · rw [Store.getElem?_push_of_lt (same.size ▸ old), atLeft]
    · rw [extended.image i old, Store.getElem?_push_of_lt (same.image_lt i old), atRight]

end Store.Matches

/-- A binding on one side is not noticed where the name is not seen. -/
theorem Machine.Matches.bound_unseen {left right after : Machine} {name : String} {value : Value}
    (same : Machine.Matches code world left right) (change : right.Bound name value after)
    (unseen : ¬ world.sees world.current name) : Machine.Matches code world left after := by
  refine ⟨⟨same.size, ?_⟩, same.current, change.current.trans same.currentImage⟩
  intro i bound
  obtain ⟨own, there, atLeft, atRight, scopes⟩ := same.scopes i bound
  by_cases target : i = world.current
  · subst target
    rw [← same.currentImage] at atRight
    obtain ⟨now, atNow, enclosing, _, others⟩ := change.here there atRight
    rw [same.currentImage] at atNow
    refine ⟨own, now, atLeft, atNow, enclosing ▸ scopes.enclosing, ?_⟩
    intro other seen
    have different : other ≠ name := fun is => unseen (is ▸ seen)
    rw [others other different]
    exact scopes.bindings other seen
  · have apart : world.image i ≠ right.current :=
      same.currentImage ▸ world.image_ne target bound world.inside
    refine ⟨own, there, atLeft, ?_, scopes⟩
    rw [change.scopes _ (same.image_lt i bound) apart, atRight]

end ScopeScript
