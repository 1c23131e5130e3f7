import ScopeScript.Evaluation.Basic
import ScopeScript.Proofs.Simulation.World

namespace ScopeScript

/-- Two ways to end: with results that correspond, or with interrupts that do. -/
inductive Ending.Alike {α β : Type} (closures : Closure → Closure → Prop)
    (results : α → β → Prop) : Except Interrupt α → Except Interrupt β → Prop
  | ok {left : α} {right : β} :
    results left right → Alike closures results (.ok left) (.ok right)
  | error {left right : Interrupt} :
    left.Alike closures right → Alike closures results (.error left) (.error right)

/-- Two evaluations that end alike on machines that correspond, and leave machines that
correspond. What corresponded before still does. -/
def Matched {α β : Type} (code : Block → Block → Prop) (world : World)
    (results : World → α → β → Prop) (left : Evaluation α) (right : Evaluation β) : Prop :=
  ∀ before other, Machine.Matches code world before other →
    ∃ later, world.Later later ∧
      Machine.Matches code later (left.perform before).2 (right.perform other).2 ∧
      Ending.Alike (Closure.Matches code later) (results later) (left.perform before).1
        (right.perform other).1

/-- The results of expressions and statements that correspond. -/
abbrev Optional (code : Block → Block → Prop) (world : World) :
    Option Value → Option Value → Prop :=
  Option.Rel (Value.Matches code world)

open Evaluation

variable {code : Block → Block → Prop} {world : World}

/-- Endings that are alike in a world are alike in every world that extends it. -/
theorem Ending.Alike.extend {large : World} {left right : Except Interrupt (Option Value)}
    (alike : Ending.Alike (Closure.Matches code world) (Optional code world) left right)
    (extended : world.Extends large) :
    Ending.Alike (Closure.Matches code large) (Optional code large) left right := by
  have coarse : ∀ f g, Closure.Matches code world f g → Closure.Matches code large f g :=
    fun _ _ captured => captured.mono extended
  cases alike with
  | ok values => exact .ok (Value.Alike.option_mono values coarse)
  | error interrupt => exact .error (interrupt.mono coarse)

/-- A return at the top of a program counts as a normal end, on both sides alike. -/
theorem Outcome.ofEnding_alike {closures : Closure → Closure → Prop}
    {left right : Except Interrupt (Option Value)}
    (alike : Ending.Alike closures (Option.Rel (Value.Alike closures)) left right) :
    (Outcome.ofEnding left).Alike closures (Outcome.ofEnding right) := by
  cases alike with
  | ok values => exact .completed (.finished values)
  | error interrupt =>
    cases interrupt with
    | returned values => exact .completed (.finished values)
    | exited code => exact .completed (.exited code)
    | failed error => exact .failed error
    | tooDeep => exact .tooDeep

namespace Matched

variable {α β γ δ : Type} {results : World → α → β → Prop} {finals : World → γ → δ → Prop}

theorem pure {left : α} {right : β} (alike : results world left right) :
    Matched code world results (pure left) (pure right) :=
  fun _ _ same => ⟨world, .refl world, same, .ok alike⟩

theorem throw {left right : Interrupt} (alike : left.Alike (Closure.Matches code world) right) :
    Matched code world results (throw left) (throw right) :=
  fun _ _ same => ⟨world, .refl world, same, .error alike⟩

theorem fail (error : RuntimeError) :
    Matched code world results (Evaluation.fail error) (Evaluation.fail error) :=
  .throw (.failed error)

/-- The first evaluations may extend the world, and what follows them is compared in the
extended one. -/
theorem bind {left : Evaluation α} {right : Evaluation β} {next : α → Evaluation γ}
    {others : β → Evaluation δ} (first : Matched code world results left right)
    (rest : ∀ later, world.Later later → ∀ a b, results later a b →
      Matched code later finals (next a) (others b)) :
    Matched code world finals (left >>= next) (right >>= others) := by
  intro before other same
  obtain ⟨later, grown, after, alike⟩ := first before other same
  rw [perform_bind, perform_bind]
  generalize left.perform before = ran at after alike
  generalize right.perform other = others at after alike
  obtain ⟨ending, machine⟩ := ran
  obtain ⟨otherEnding, otherMachine⟩ := others
  cases alike with
  | error interrupt => exact ⟨later, grown, after, .error interrupt⟩
  | ok result =>
    obtain ⟨last, grownAgain, final, alikeLast⟩ := rest later grown _ _ result _ _ after
    exact ⟨last, grown.trans grownAgain, final, alikeLast⟩

/-- A name that is seen means corresponding values on both sides, or is unbound on both. -/
theorem lookup {name : String} (seen : world.sees world.current name) :
    Matched code world (Value.Matches code) (lookup name) (lookup name) := by
  intro before other same
  have meaning := same.toMatches.lookup world.current world.inside seen
  rw [← same.currentImage, ← same.current] at meaning
  rw [perform_lookup, perform_lookup]
  unfold Store.get
  cases leftMeaning : before.store.lookup before.current name with
  | none =>
    rw [leftMeaning] at meaning
    cases rightMeaning : other.store.lookup other.current name with
    | some value => simp [rightMeaning] at meaning
    | none => exact ⟨world, .refl world, same, .error (.failed _)⟩
  | some value =>
    rw [leftMeaning] at meaning
    cases rightMeaning : other.store.lookup other.current name with
    | none => simp [rightMeaning] at meaning
    | some otherValue =>
      rw [rightMeaning] at meaning
      exact ⟨world, .refl world, same, .ok (Option.rel_some_some.mp meaning)⟩

theorem define (name : String) {value other : Value} (alike : Value.Matches code world value other) :
    Matched code world (fun _ _ _ => True) (define name value) (define name other) := by
  intro left right same
  refine ⟨world, .refl world, ⟨?_, same.current, same.currentImage⟩, .ok trivial⟩
  simp only [perform_define]
  rw [same.current, same.currentImage]
  exact same.toMatches.define name world.inside alike

/-- Both closures capture their current scope. They correspond if the names in the body are seen
there. -/
theorem capture (parameters : List String) {body other : Block} (bodies : code body other)
    (shown : world.Shows (Block.names body)) :
    Matched code world (Value.Matches code) (capture parameters body) (capture parameters other) := by
  intro left right same
  refine ⟨world, .refl world, ⟨⟨same.size, same.scopes⟩, same.current, same.currentImage⟩,
    ?_⟩
  refine .ok (.function ⟨rfl, bodies, ?_, ?_, ?_⟩)
  · exact same.current.symm ▸ world.inside
  · exact same.current.symm ▸ same.currentImage
  · exact same.current.symm ▸ shown

theorem present (use : Use) {value other : Option Value} (alike : Optional code world value other) :
    Matched code world (Value.Matches code) (present use value) (present use other) := by
  cases alike with
  | none => exact .fail _
  | some same => exact .pure same

/-- Correspondence keeps integers, truth values and functions apart, so an operand is used on both
sides or is of the wrong type on both. -/
theorem integer (use : Use) {value other : Option Value} (alike : Optional code world value other) :
    Matched code world (fun _ => Eq) (integer use value) (integer use other) := by
  cases alike with
  | none => exact .fail _
  | some same =>
    cases same with
    | integer value => exact .pure rfl
    | boolean value => exact .fail _
    | function closures => exact .fail _

theorem boolean (use : Use) {value other : Option Value} (alike : Optional code world value other) :
    Matched code world (fun _ => Eq) (boolean use value) (boolean use other) := by
  cases alike with
  | none => exact .fail _
  | some same =>
    cases same with
    | boolean value => exact .pure rfl
    | integer value => exact .fail _
    | function closures => exact .fail _

theorem callable {value other : Option Value} (alike : Optional code world value other) :
    Matched code world (Closure.Matches code) (callable value) (callable other) := by
  cases alike with
  | none => exact .fail _
  | some same =>
    cases same with
    | function closures => exact .pure closures
    | integer value => exact .fail _
    | boolean value => exact .fail _

/-- A return is caught on both sides, and so is no other interrupt. -/
theorem untilReturn {left right : Evaluation (Option Value)}
    (bodies : Matched code world (Optional code) left right) :
    Matched code world (Optional code) (untilReturn left) (untilReturn right) := by
  intro before other same
  obtain ⟨later, grown, after, alike⟩ := bodies before other same
  rw [perform_untilReturn, perform_untilReturn]
  generalize left.perform before = ran at after alike
  generalize right.perform other = others at after alike
  obtain ⟨ending, machine⟩ := ran
  obtain ⟨otherEnding, otherMachine⟩ := others
  cases alike with
  | ok result => exact ⟨later, grown, after, .ok result⟩
  | error interrupt =>
    cases interrupt with
    | returned values => exact ⟨later, grown, after, .ok values⟩
    | exited code => exact ⟨later, grown, after, .error (.exited code)⟩
    | failed error => exact ⟨later, grown, after, .error (.failed error)⟩
    | tooDeep => exact ⟨later, grown, after, .error .tooDeep⟩

/-- Evaluations in scopes opened for them. The new scope may hide names, as long as the
evaluations match where these are hidden. -/
theorem opened {left right : Evaluation (Option Value)} {outer : Nat} (bound : outer < world.size)
    {seen : String → Prop} (narrower : ∀ name, seen name → world.sees outer name)
    (names : List String) {values others : List Value}
    (alike : List.Forall₂ (Value.Matches code world) values others)
    (bodies : ∀ fresh above, Matched code (world.opened fresh above seen) (Optional code) left right) :
    Matched code world (Optional code)
      (openScope outer names values >>= fun scope => within scope left)
      (openScope (world.image outer) names others >>= fun scope => within scope right) := by
  intro before other same
  have above := same.toMatches.image_lt
  let inner := world.opened other.store.scopes.size above seen
  have extended : world.Extends inner := world.extends_opened _ above seen
  have valuesInside : List.Forall₂ (Value.Matches code inner) values others :=
    alike.imp fun _ _ value => value.extend extended
  have bindings := (same.toMatches.push bound narrower).defineAll names inner.inside valuesInside
  have leftSize : inner.current = before.store.scopes.size := same.size.symm
  have rightSize : inner.image inner.current = other.store.scopes.size :=
    world.opened_image_size _ above seen
  rw [rightSize, leftSize] at bindings
  have entered : Machine.Matches code inner
      ⟨(before.store.push (some outer)).2.defineAll before.store.scopes.size names values,
        before.store.scopes.size⟩
      ⟨(other.store.push (some (world.image outer))).2.defineAll other.store.scopes.size names others,
        other.store.scopes.size⟩ :=
    ⟨bindings, leftSize.symm, rightSize.symm⟩
  obtain ⟨later, grown, after, ends⟩ := bodies _ above _ _ entered
  have grownOutside : world.Extends later := extended.trans grown.toExtends
  have still : world.current < later.size := Nat.lt_of_lt_of_le world.inside grownOutside.size
  have back := later.extends_enter world.current still
  refine ⟨later.enter world.current still, ⟨grownOutside.trans back, rfl⟩,
    ⟨after.toMatches.enter _ still, same.current, ?_⟩, ends.extend back⟩
  have image : (later.enter world.current still).image world.current = world.image world.current :=
    grownOutside.image _ world.inside
  exact same.currentImage.trans image.symm

end Matched

end ScopeScript
