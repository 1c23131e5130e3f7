import Mathlib.Data.List.Nodup
import ScopeScript.Proofs.Session.ScopeGraph

namespace ScopeScript

open Evaluation

/-- The closure is what was made at the event in this place. -/
def StemsFrom (events : List Event) (place : Nat) (closure : Closure) : Prop :=
  ∃ event, events[place]? = some event ∧ event.made = [closure]

/-- The functions that are held at the events of a session stem from one evaluation each, and are
the same function exactly if that is the same evaluation. What is made differs from all that was
held before. -/
structure Identity (events : List Event) : Prop where
  stems : ∀ event ∈ events, ∀ closure, event.Holds closure →
    ∃! place, StemsFrom events place closure
  same : ∀ first ∈ events, ∀ second ∈ events, ∀ f g, first.Holds f → second.Holds g →
    ((Value.function f == .function g) = true ↔
      ∃ place, StemsFrom events place f ∧ StemsFrom events place g)
  alike : ∀ first ∈ events, ∀ second ∈ events, ∀ f g, first.Holds f → second.Holds g →
    (Value.function f == .function g) = true →
      f.parameters = g.parameters ∧ f.body = g.body ∧ f.scope = g.scope
  fresh : ∀ earlier event later, events = earlier ++ event :: later → ∀ closure ∈ event.made,
    ∀ past ∈ earlier, ∀ other, past.Holds other →
      (Value.function closure == .function other) = false

/-- A value comes out of a name, a binding, a return, a branch, a parameter and a call as the one
that went in. -/
structure Machine.HandsOn (depth : Nat) (machine : Machine) : Prop where
  name : ∀ name value, machine.store.get machine.current name = .ok value →
    ((Expr.name name).eval (invoke depth)).perform machine = (.ok (some value), machine)
  binding : ∀ name initial value between,
    (initial.eval (invoke depth)).perform machine = (.ok (some value), between) →
      ∃ after, ((Stmt.var name initial).exec (invoke depth)).perform machine =
        (.ok (some value), after) ∧ after.store.get after.current name = .ok value
  declaration : ∀ name parameters body, ∃ closure after,
    ((Stmt.function name parameters body).exec (invoke depth)).perform machine =
      (.ok (some (.function closure)), after) ∧
        after.store.get after.current name = .ok (.function closure)
  returned : ∀ result value between,
    (result.eval (invoke depth)).perform machine = (.ok value, between) →
      ((Stmt.returns result).exec (invoke depth)).perform machine =
        (.error (.returned value), between)
  ifThen : ∀ condition consequence between,
    (condition.eval (invoke depth)).perform machine = (.ok (some (.boolean true)), between) →
      (((Expr.ifThen condition consequence).eval (invoke depth)).perform machine).1 =
        ((Stmt.execAll (invoke depth) none consequence).perform
          (between.entered between.current [] [])).1
  ifElse : ∀ condition consequence alternative holds between,
    (condition.eval (invoke depth)).perform machine = (.ok (some (.boolean holds)), between) →
      (((Expr.ifElse condition consequence alternative).eval (invoke depth)).perform machine).1 =
        ((Stmt.execAll (invoke depth) none (if holds then consequence else alternative)).perform
          (between.entered between.current [] [])).1
  argument : ∀ scope before name behind first value more, before.length = first.length →
    name ∉ behind →
      (machine.entered scope (before ++ name :: behind) (first ++ value :: more)).store.get
        (machine.entered scope (before ++ name :: behind) (first ++ value :: more)).current name =
          .ok value
  arguments : ∀ argument value between more values after,
    (argument.eval (invoke depth)).perform machine = (.ok (some value), between) →
      (Expr.evalAll (invoke depth) more).perform between = (.ok values, after) →
        (Expr.evalAll (invoke depth) (argument :: more)).perform machine =
          (.ok (value :: values), after)
  called : ∀ callee arguments closure values between ready value,
    (callee.eval (invoke (depth + 1))).perform machine =
      (.ok (some (.function closure)), between) →
    closure.parameters.length = arguments.length →
    (Expr.evalAll (invoke (depth + 1)) arguments).perform between = (.ok values, ready) →
    ((Stmt.execAll (invoke depth) none closure.body).perform
      (ready.entered closure.scope closure.parameters values)).1 = .ok value ∨
    ((Stmt.execAll (invoke depth) none closure.body).perform
      (ready.entered closure.scope closure.parameters values)).1 = .error (.returned value) →
      (((Expr.call callee arguments).eval (invoke (depth + 1))).perform machine).1 = .ok value

namespace Value

/-- What is compared when two values are: the number alone stands for a function. -/
def identity : Value → Int64 ⊕ Bool ⊕ Nat
  | integer value => .inl value
  | boolean value => .inr (.inl value)
  | function closure => .inr (.inr closure.id)

theorem beq_iff (left right : Value) : (left == right) = true ↔ left.identity = right.identity := by
  change left.same right = true ↔ _
  cases left <;> cases right <;> simp [same, identity]

theorem beq_equivalence : Equivalence fun left right : Value => (left == right) = true := by
  simp only [beq_iff]
  exact ⟨fun _ => rfl, Eq.symm, Eq.trans⟩

end Value

namespace Completion

def identity : Completion → Option (Int64 ⊕ Bool ⊕ Nat) ⊕ Int64
  | finished value => .inl (value.map Value.identity)
  | exited code => .inr code

theorem beq_iff (left right : Completion) :
    (left == right) = true ↔ left.identity = right.identity := by
  change left.same right = true ↔ _
  match left, right with
  | finished none, finished none => simp [same, identity]
  | finished none, finished (some _) => simp [same, identity]
  | finished (some _), finished none => simp [same, identity]
  | finished (some first), finished (some second) => simp [same, identity, Value.beq_iff]
  | finished _, exited _ => simp [same, identity]
  | exited _, finished _ => simp [same, identity]
  | exited _, exited _ => simp [same, identity]

theorem beq_equivalence : Equivalence fun left right : Completion => (left == right) = true := by
  simp only [beq_iff]
  exact ⟨fun _ => rfl, Eq.symm, Eq.trans⟩

end Completion

namespace Event

theorem made_eq_of_mem {event : Event} {closure : Closure} (member : closure ∈ event.made) :
    event.made = [closure] := by
  unfold made at member ⊢
  split at member
  · rw [List.mem_singleton.mp member]
  · rw [List.mem_singleton.mp member]
  · cases member

end Event

theorem mem_madeIn_iff {events : List Event} {closure : Closure} :
    closure ∈ madeIn events ↔ ∃ place, StemsFrom events place closure := by
  unfold madeIn
  rw [List.mem_flatMap]
  constructor
  · rintro ⟨event, happens, made⟩
    obtain ⟨place, found⟩ := List.mem_iff_getElem?.mp happens
    exact ⟨place, event, found, Event.made_eq_of_mem made⟩
  · rintro ⟨place, event, found, made⟩
    refine ⟨event, List.mem_iff_getElem?.mpr ⟨place, found⟩, ?_⟩
    rw [made]
    exact List.mem_singleton_self closure

/-- If no number is given twice, it is given at one event only. -/
theorem StemsFrom.place_unique {events : List Event} {i j : Nat} {f g : Closure}
    (nodup : ((madeIn events).map Closure.id).Nodup) (first : StemsFrom events i f)
    (second : StemsFrom events j g) (same : f.id = g.id) : i = j := by
  obtain ⟨event, atEvent, makes⟩ := first
  obtain ⟨other, atOther, makesOther⟩ := second
  rw [madeIn, List.map_flatMap, List.nodup_flatMap] at nodup
  have apart := List.pairwise_iff_getElem.mp nodup.2
  have shared {first second : Event} {f g : Closure} (makes : first.made = [f])
      (makesOther : second.made = [g]) (same : f.id = g.id) :
      ¬ List.Disjoint (first.made.map Closure.id) (second.made.map Closure.id) := by
    simp [makes, makesOther, same]
  obtain ⟨inside, rfl⟩ := List.getElem?_eq_some_iff.mp atEvent
  obtain ⟨within, rfl⟩ := List.getElem?_eq_some_iff.mp atOther
  rcases Nat.lt_trichotomy i j with before | equal | behind
  · exact absurd (apart i j inside within before) (shared makes makesOther same)
  · exact equal
  · exact absurd (apart j i within inside behind) (shared makesOther makes same.symm)

namespace Chronicle

variable {before after : Machine} {events first more : List Event} {event : Event}

/-- Whatever is held at an event was made before it or at it. -/
theorem mem_of_holds {closure : Closure}
    (told : Chronicle [] before (first ++ event :: more) after) (holds : event.Holds closure) :
    closure ∈ madeIn first ++ event.made := by
  obtain ⟨sound, known⟩ := told.here
  rcases holds with binds | ends
  · exact sound.store.bound closure binds
  · exact known _ ends _ rfl

theorem mem_madeIn_of_holds {closure : Closure} (told : Chronicle [] before events after)
    (happens : event ∈ events) (holds : event.Holds closure) : closure ∈ madeIn events := by
  obtain ⟨first, more, rfl⟩ := List.append_of_mem happens
  rw [madeIn_append, madeIn_cons, ← List.append_assoc]
  exact List.mem_append_left _ (told.mem_of_holds holds)

theorem nodup_ids (told : Chronicle [] before events after) :
    ((madeIn events).map Closure.id).Nodup := by
  rcases List.eq_nil_or_concat events with rfl | ⟨first, last, rfl⟩
  · exact List.nodup_nil
  · rw [List.concat_eq_append] at told ⊢
    rw [madeIn_append, madeIn_cons, madeIn_nil, List.append_nil]
    exact told.here.1.store.nodup_ids

theorem identity (told : Chronicle [] before events after) : Identity events := by
  have nodup := told.nodup_ids
  have equal {one other : Event} {f g : Closure} (happens : one ∈ events)
      (occurs : other ∈ events) (holds : one.Holds f) (keeps : other.Holds g)
      (same : f.id = g.id) : f = g :=
    List.inj_on_of_nodup_map nodup (told.mem_madeIn_of_holds happens holds)
      (told.mem_madeIn_of_holds occurs keeps) same
  refine ⟨?_, ?_, ?_, ?_⟩
  · intro event happens closure holds
    obtain ⟨place, stems⟩ := mem_madeIn_iff.mp (told.mem_madeIn_of_holds happens holds)
    exact ⟨place, stems, fun other born => born.place_unique nodup stems rfl⟩
  · intro one happens other occurs f g holds keeps
    rw [Value.beq_iff]
    constructor
    · intro same
      cases equal happens occurs holds keeps (Sum.inr.inj (Sum.inr.inj same))
      obtain ⟨place, stems⟩ := mem_madeIn_iff.mp (told.mem_madeIn_of_holds happens holds)
      exact ⟨place, stems, stems⟩
    · rintro ⟨place, ⟨event, found, makes⟩, again, found', makes'⟩
      cases found.symm.trans found'
      cases makes.symm.trans makes'
      rfl
  · intro one happens other occurs f g holds keeps same
    rw [Value.beq_iff] at same
    cases equal happens occurs holds keeps (Sum.inr.inj (Sum.inr.inj same))
    exact ⟨rfl, rfl, rfl⟩
  · rintro earlier event later rfl closure new past happens other holds
    have old : other ∈ madeIn earlier := by
      obtain ⟨first, more, rfl⟩ := List.append_of_mem happens
      rw [List.append_assoc, List.cons_append] at told
      rw [madeIn_append, madeIn_cons, ← List.append_assoc]
      exact List.mem_append_left _ (told.mem_of_holds holds)
    rw [madeIn_append, madeIn_cons, List.map_append, List.map_append] at nodup
    have apart := List.disjoint_of_nodup_append nodup
    refine Bool.eq_false_iff.mpr fun same => ?_
    rw [Value.beq_iff] at same
    have number : closure.id = other.id := Sum.inr.inj (Sum.inr.inj same)
    refine apart (List.mem_map_of_mem old) (List.mem_append_left _ ?_)
    rw [← number]
    exact List.mem_map_of_mem new

end Chronicle

/-- In a scope that is open a binding is found again. -/
theorem Store.get_define_self {store : Store} {scope : Nat} (opened : scope < store.scopes.size)
    (name : String) (value : Value) :
    (store.define scope name value).get scope name = .ok value := by
  rw [get, lookup_define_self opened]

namespace Machine

theorem handsOn {machine : Machine} (opened : machine.current < machine.store.scopes.size)
    (depth : Nat) : machine.HandsOn depth where
  name name value means := by
    rw [Expr.eval, perform_bind, perform_lookup, means]
    rfl
  binding name initial value between ran := by
    have kept := initial.eval_keeps (invoke_keeps depth) machine
    rw [ran] at kept
    have still : between.current < between.store.scopes.size :=
      kept.current ▸ Nat.lt_of_lt_of_le opened kept.opened
    refine ⟨{ between with store := between.store.define between.current name value }, ?_,
      Store.get_define_self still name value⟩
    rw [Stmt.exec, perform_bind_ok ran]
    rfl
  declaration name parameters body := by
    let made := machine.store.newClosure parameters body machine.current
    have still : machine.current < made.2.scopes.size := opened
    refine ⟨made.1, { machine with store := made.2.define machine.current name (.function made.1) },
      ?_, Store.get_define_self still name _⟩
    rw [Stmt.exec]
    rfl
  returned result value between ran := by
    rw [Stmt.exec, perform_bind_ok ran]
    rfl
  ifThen condition consequence between ran := by
    rw [Expr.eval, perform_bind_ok ran]
    rfl
  ifElse condition consequence alternative holds between ran := by
    rw [Expr.eval, perform_bind_ok ran]
    cases holds <;> rfl
  argument scope before name behind first value more place other := by
    have opened : machine.store.scopes.size < (machine.store.push (some scope)).2.scopes.size := by
      simp
    rw [Machine.entered, Store.get, Store.lookup_defineAll opened value place other]
  arguments argument value between more values after ran rest := by
    rw [Expr.evalAll, perform_bind_ok ran]
    simp only [present, pure_bind]
    rw [perform_bind_ok rest]
    rfl
  called callee arguments closure values between ready value ran fits all ends := by
    rw [Expr.eval, perform_bind_ok ran]
    simp only [callable, pure_bind, if_pos fits]
    rw [perform_bind_ok all]
    unfold invoke
    simp only [within_untilReturn]
    rw [perform_opened, perform_untilReturn]
    cases ran : (Stmt.execAll (invoke depth) none closure.body).perform
        (ready.entered closure.scope closure.parameters values) with
    | mk ending last =>
      rw [ran] at ends
      rcases ends with rfl | rfl <;> rfl

end Machine

/-- In every session two functions that are held at any of its events are equal exactly if they stem
from one and the same evaluation of a literal or a function statement; every such evaluation makes
a function that differs from all that were held before; and what hands a value on hands on the same
one. Comparing values, or completions, is an equivalence. -/
theorem function_identity (depth : Nat) (session : List Block) :
    Identity (Machine.start.events depth session) ∧
    (∀ machine ∈ Machine.start.states depth session, ∀ limit, machine.HandsOn limit) ∧
    (Equivalence fun left right : Value => (left == right) = true) ∧
    Equivalence fun left right : Completion => (left == right) = true :=
  ⟨(Machine.start_sound.events depth session).identity,
    fun machine member =>
      let ⟨_, sound⟩ := Machine.sound_of_mem_states member
      machine.handsOn sound.current,
    Value.beq_equivalence, Completion.beq_equivalence⟩

/-- Two functions of the same text and the same scope, made one after the other, are not the same. -/
theorem function_identity_of_twins :
    ∃ earlier event later, Machine.start.events 0 [[.function "f" [] [], .function "f" [] []]] =
        earlier ++ event :: later ∧
      (∃ past ∈ earlier, past.Holds ⟨0, [], [], 0⟩) ∧ event.made = [⟨1, [], [], 0⟩] ∧
        (Value.function ⟨1, [], [], 0⟩ == .function ⟨0, [], [], 0⟩) = false := by
  have fresh := (function_identity 0 [[.function "f" [] [], .function "f" [] []]]).1.fresh
    [_, _, _] _ [_] rfl ⟨1, [], [], 0⟩ List.mem_cons_self
  refine ⟨[_, _, _], _, [_], rfl, ⟨_, List.mem_cons_of_mem _ List.mem_cons_self, ?_⟩, rfl, ?_⟩
  · exact .inr rfl
  · exact fresh _ (List.mem_cons_of_mem _ List.mem_cons_self) _ (.inr rfl)

end ScopeScript
