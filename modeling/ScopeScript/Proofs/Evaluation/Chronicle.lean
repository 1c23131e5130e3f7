import ScopeScript.Proofs.Evaluation.Events

namespace ScopeScript

/-- The store is sound, and the current scope is one of its scopes. -/
structure Machine.Sound (made : List Closure) (machine : Machine) : Prop where
  store : machine.store.Sound made
  current : machine.current < machine.store.scopes.size

/-- A value that is missing is known, too. -/
def Known (made : List Closure) (result : Option Value) : Prop :=
  ∀ value, result = some value → value.Known made

/-- The closures that are made at the events come on top of those that were made before. At each
event the machine is sound for those made so far, what is yielded there is one of them, and all
links are those from before. -/
def Chronicle (made : List Closure) (before : Machine) : List Event → Machine → Prop
  | [], after => before.store.LinksKept after.store
  | event :: more, after =>
    before.store.LinksKept event.machine.store ∧ event.machine.Sound (made ++ event.made) ∧
      Known (made ++ event.made) event.value? ∧
      Chronicle (made ++ event.made) event.machine more after

/-- A result is good, and the value of a return is known. -/
def Meets {α : Type} (good : List Closure → α → Prop) (made : List Closure) :
    Except Interrupt α → Prop
  | .ok result => good made result
  | .error interrupt => Known made interrupt.carried

/-- The events lead from one machine to another, which is sound again, and what stands at the end
is good for the closures that were made until then. -/
structure Told {α : Type} (made : List Closure) (before : Machine) (events : List Event)
    (good : List Closure → α → Prop) (ending : Except Interrupt α) (after : Machine) : Prop where
  chronicle : Chronicle made before events after
  sound : after.Sound (made ++ madeIn events)
  meets : Meets good (made ++ madeIn events) ending

/-- What an evaluation does on a machine is told by the events. -/
def Records {α : Type} (made : List Closure) (machine : Machine) (evaluation : Evaluation α)
    (events : List Event) (good : List Closure → α → Prop) : Prop :=
  Told made machine events good (evaluation.perform machine).1 (evaluation.perform machine).2

theorem known_some {made : List Closure} {value : Value} (known : value.Known made) :
    Known made (some value) := by
  rintro _ ⟨⟩
  exact known

theorem known_none (made : List Closure) : Known made none := by
  intro value is
  cases is

theorem Meets.known {made : List Closure} {ending : Except Interrupt (Option Value)}
    (meets : Meets Known made ending) : Known made (carried ending) := by
  cases ending <;> exact meets

@[simp] theorem madeIn_nil : madeIn [] = [] := rfl

@[simp] theorem madeIn_cons (event : Event) (more : List Event) :
    madeIn (event :: more) = event.made ++ madeIn more :=
  List.flatMap_cons

@[simp] theorem madeIn_append (first more : List Event) :
    madeIn (first ++ more) = madeIn first ++ madeIn more :=
  List.flatMap_append

namespace Machine.Sound

variable {made : List Closure} {machine : Machine}

theorem define (sound : machine.Sound made) (name : String) {value : Value}
    (known : value.Known made) :
    Machine.Sound made { machine with store := machine.store.define machine.current name value } :=
  ⟨sound.store.define machine.current name known,
    Nat.lt_of_lt_of_eq sound.current (Store.size_define ..).symm⟩

/-- A closure that captures the current scope is one more that was made. -/
theorem capture (sound : machine.Sound made) (parameters : List String) (body : Block) :
    Machine.Sound (made ++ [(machine.store.newClosure parameters body machine.current).1])
      { machine with store := (machine.store.newClosure parameters body machine.current).2 } :=
  ⟨sound.store.newClosure parameters body sound.current, sound.current⟩

theorem entered (sound : machine.Sound made) {enclosing : Nat}
    (opened : enclosing < machine.store.scopes.size) (names : List String) {values : List Value}
    (known : ∀ value ∈ values, value.Known made) :
    (machine.entered enclosing names values).Sound made := by
  refine ⟨(sound.store.push opened).defineAll _ names known, ?_⟩
  simp [Machine.entered]

end Machine.Sound

section Chronicle

variable {made : List Closure} {before between after : Machine} {first more : List Event}
  {phrase : Phrase}

/-- No closure is made at the first event. -/
theorem Chronicle.quiet {event : Event} (makes : event.made = [])
    (kept : before.store.LinksKept event.machine.store) (sound : event.machine.Sound made)
    (known : Known made event.value?) (rest : Chronicle made event.machine more after) :
    Chronicle made before (event :: more) after := by
  have same : made ++ event.made = made := by rw [makes, List.append_nil]
  rw [← same] at sound known rest
  exact ⟨kept, sound, known, rest⟩

theorem Chronicle.begins (sound : before.Sound made) (rest : Chronicle made before more after) :
    Chronicle made before (.begins phrase before :: more) after :=
  .quiet rfl (.refl _) sound (known_none made) rest

theorem Chronicle.event {event : Event} {new : List Closure} (makes : event.made = new)
    (kept : before.store.LinksKept event.machine.store) (sound : event.machine.Sound (made ++ new))
    (known : Known (made ++ new) event.value?) :
    Chronicle made before [event] event.machine := by
  subst makes
  exact ⟨kept, sound, known, .refl _⟩

theorem Chronicle.of_linksKept (kept : before.store.LinksKept between.store)
    (chronicle : Chronicle made between more after) : Chronicle made before more after := by
  cases more with
  | nil => exact kept.trans chronicle
  | cons event rest => exact ⟨kept.trans chronicle.1, chronicle.2⟩

theorem Chronicle.append (told : Chronicle made before first between)
    (rest : Chronicle (made ++ madeIn first) between more after) :
    Chronicle made before (first ++ more) after := by
  induction first generalizing made before with
  | nil =>
    rw [madeIn_nil, List.append_nil] at rest
    exact rest.of_linksKept told
  | cons event events ih =>
    refine ⟨told.1, told.2.1, told.2.2.1, ih told.2.2.2 ?_⟩
    rwa [madeIn_cons, ← List.append_assoc] at rest

/-- Nothing but the links of the last machine matters. -/
theorem Chronicle.to_linksKept (told : Chronicle made before first between)
    (kept : between.store.LinksKept after.store) : Chronicle made before first after := by
  have longer : Chronicle made before (first ++ []) after := told.append kept
  rwa [List.append_nil] at longer

theorem Chronicle.linksKept (told : Chronicle made before first after) :
    before.store.LinksKept after.store := by
  induction first generalizing made before with
  | nil => exact told
  | cons event events ih => exact told.1.trans (ih told.2.2.2)

/-- What holds at an event, with the closures that were made until then. -/
theorem Chronicle.here {event : Event}
    (told : Chronicle made before (first ++ event :: more) after) :
    event.machine.Sound (made ++ madeIn first ++ event.made) ∧
      Known (made ++ madeIn first ++ event.made) event.value? := by
  induction first generalizing made before with
  | nil =>
    rw [madeIn_nil, List.append_nil]
    exact ⟨told.2.1, told.2.2.1⟩
  | cons earlier events ih =>
    rw [madeIn_cons, ← List.append_assoc]
    exact ih told.2.2.2

/-- Links are kept from the beginning to each event and from each event to all later ones. -/
theorem Chronicle.pairwise (told : Chronicle made before first after) :
    (before :: first.map Event.machine).Pairwise fun earlier later =>
      earlier.store.LinksKept later.store := by
  induction first generalizing made before with
  | nil => exact List.pairwise_singleton _ _
  | cons event events ih =>
    have later := ih told.2.2.2
    refine List.pairwise_cons.mpr ⟨?_, later⟩
    intro machine member
    rcases List.mem_cons.mp member with rfl | behind
    · exact told.1
    · exact told.1.trans (List.rel_of_pairwise_cons later behind)

end Chronicle

namespace Records

open Evaluation

variable {α β : Type} {made : List Closure} {machine : Machine} {evaluation : Evaluation α}
  {good : List Closure → α → Prop} {goodNext : List Closure → β → Prop}

/-- Nothing happens in what leaves the machine as it is. -/
theorem of_unchanged (sound : machine.Sound made) {ending : Except Interrupt α}
    (performed : evaluation.perform machine = (ending, machine)) (meets : Meets good made ending) :
    Records made machine evaluation [] good := by
  unfold Records
  rw [performed]
  refine ⟨.refl _, ?_, ?_⟩
  · rwa [madeIn_nil, List.append_nil]
  · rwa [madeIn_nil, List.append_nil]

theorem pure (sound : machine.Sound made) {result : α} (is : good made result) :
    Records made machine (Pure.pure result) [] good :=
  of_unchanged sound (perform_pure result machine) is

theorem throw (sound : machine.Sound made) {interrupt : Interrupt}
    (known : Known made interrupt.carried) :
    Records made machine (MonadExcept.throw interrupt : Evaluation α) [] good :=
  of_unchanged sound (perform_throw interrupt machine) known

theorem fail (sound : machine.Sound made) (error : RuntimeError) :
    Records made machine (Evaluation.fail error : Evaluation α) [] good :=
  throw sound (known_none made)

/-- What happens in one evaluation and then in the next. -/
theorem bind {first : Evaluation α} {next : α → Evaluation β} {events : List Event}
    {more : α → Machine → List Event} (told : Records made machine first events good)
    (rest : ∀ result after, good (made ++ madeIn events) result →
      after.Sound (made ++ madeIn events) →
      Records (made ++ madeIn events) after (next result) (more result after) goodNext) :
    Records made machine (first >>= next) (events ++ behind first more machine) goodNext := by
  unfold Records behind at *
  rw [perform_bind]
  cases ran : first.perform machine with
  | mk ending after =>
    rw [ran] at told
    obtain ⟨chronicle, sound, meets⟩ := told
    cases ending with
    | error cause =>
      dsimp only
      rw [List.append_nil]
      exact ⟨chronicle, sound, meets⟩
    | ok value =>
      have further := rest value after meets sound
      dsimp only
      refine ⟨chronicle.append further.chronicle, ?_, ?_⟩
      · rw [madeIn_append, ← List.append_assoc]
        exact further.sound
      · rw [madeIn_append, ← List.append_assoc]
        exact further.meets

/-- Nothing more happens in the second evaluation. -/
theorem bind_quiet {first : Evaluation α} {next : α → Evaluation β} {events : List Event}
    (told : Records made machine first events good)
    (rest : ∀ result after, good (made ++ madeIn events) result →
      after.Sound (made ++ madeIn events) →
      Records (made ++ madeIn events) after (next result) [] goodNext) :
    Records made machine (first >>= next) events goodNext := by
  have nothing : behind first (fun _ _ => []) machine = [] := by
    unfold behind
    split <;> rfl
  have both : Records made machine (first >>= next)
      (events ++ behind first (fun _ _ => []) machine) goodNext := told.bind rest
  rwa [nothing, List.append_nil] at both

/-- Nothing happens in the first evaluation. -/
theorem quiet_bind {first : Evaluation α} {next : α → Evaluation β}
    {more : α → Machine → List Event} (told : Records made machine first [] good)
    (rest : ∀ result after, good made result → after.Sound made →
      Records made after (next result) (more result after) goodNext) :
    Records made machine (first >>= next) (behind first more machine) goodNext := by
  refine told.bind fun result after is sound => ?_
  rw [madeIn_nil, List.append_nil] at is sound ⊢
  exact rest result after is sound

theorem lookup (sound : machine.Sound made) (name : String) :
    Records made machine (lookup name) [] Value.Known := by
  have performed := perform_lookup name machine
  unfold Store.get at performed
  cases found : machine.store.lookup machine.current name with
  | none =>
    rw [found] at performed
    exact of_unchanged sound performed (known_none made)
  | some value =>
    rw [found] at performed
    exact of_unchanged sound performed (sound.store.lookup_known found)

theorem define (sound : machine.Sound made) (name : String) {value : Value}
    (known : value.Known made) :
    Records made machine (define name value) [] fun made _ => value.Known made where
  chronicle := Store.linksKept_define machine.store machine.current name value
  sound := by
    rw [madeIn_nil, List.append_nil]
    exact sound.define name known
  meets := by
    rw [madeIn_nil, List.append_nil]
    exact known

theorem integer (sound : machine.Sound made) (use : Use) (value : Option Value) :
    Records made machine (integer use value) [] fun _ _ => True := by
  unfold Evaluation.integer
  split
  · exact pure sound trivial
  · exact fail sound _

theorem boolean (sound : machine.Sound made) (use : Use) (value : Option Value) :
    Records made machine (boolean use value) [] fun _ _ => True := by
  unfold Evaluation.boolean
  split
  · exact pure sound trivial
  · exact fail sound _

theorem present (sound : machine.Sound made) (use : Use) {value : Option Value}
    (known : Known made value) : Records made machine (present use value) [] Value.Known := by
  unfold Evaluation.present
  split
  · exact pure sound (known _ rfl)
  · exact fail sound _

theorem callable (sound : machine.Sound made) {value : Option Value} (known : Known made value) :
    Records made machine (callable value) [] fun made closure => closure ∈ made := by
  unfold Evaluation.callable
  split
  · exact pure sound (known _ rfl _ rfl)
  · exact fail sound _

/-- In a new scope, whatever happens there, and back in the scope from before. -/
theorem opened {body : Evaluation α} {enclosing : Nat} {names : List String}
    {values : List Value} {events : List Event} (sound : machine.Sound made)
    (old : enclosing < machine.store.scopes.size)
    (known : ∀ value ∈ values, value.Known made)
    (told : (machine.entered enclosing names values).Sound made →
      Records made (machine.entered enclosing names values) body events good) :
    Records made machine (openScope enclosing names values >>= fun scope => within scope body)
      events good := by
  have kept : machine.store.LinksKept (machine.entered enclosing names values).store :=
    (Store.linksKept_push machine.store (some enclosing)).trans (Store.linksKept_defineAll ..)
  obtain ⟨chronicle, inside, meets⟩ := told (sound.entered old names known)
  have opened := (kept.trans chronicle.linksKept).opened
  unfold Records
  rw [perform_opened]
  refine ⟨(chronicle.of_linksKept kept).to_linksKept (.refl _), ?_, meets⟩
  exact ⟨inside.store, Nat.lt_of_lt_of_le sound.current opened⟩

theorem nested {body : Evaluation α} {events : List Event} (sound : machine.Sound made)
    (told : (machine.entered machine.current [] []).Sound made →
      Records made (machine.entered machine.current [] []) body events good) :
    Records made machine (nested body) events good :=
  opened sound sound.current (List.forall_mem_nil _) told

/-- The value of a return is known like any other. -/
theorem untilReturn {body : Evaluation (Option Value)} {events : List Event}
    (told : Records made machine body events Known) :
    Records made machine (untilReturn body) events Known := by
  unfold Records at *
  rw [perform_untilReturn]
  cases ran : body.perform machine with
  | mk ending after =>
    rw [ran] at told
    match ending with
    | .ok _ => exact told
    | .error (.returned _) => exact ⟨told.chronicle, told.sound, told.meets⟩
    | .error (.exited _) => exact told
    | .error (.failed _) => exact told
    | .error .tooDeep => exact told

/-- The evaluation of a phrase begins before all that happens inside of it and ends behind it. -/
theorem around {call : Caller} (phrase : Phrase) {inside : List Event} (sound : machine.Sound made)
    (making : ∀ ending after, (Event.ends phrase ending after).made = [])
    (told : Records made machine (phrase.run call) inside Known) :
    Records made machine (phrase.run call) (phrase.around call machine inside) Known := by
  unfold Records Phrase.around at *
  cases ran : (phrase.run call).perform machine with
  | mk ending after =>
    rw [ran] at told
    obtain ⟨chronicle, soundAfter, meets⟩ := told
    have known := meets.known
    have all : madeIn (.begins phrase machine :: (inside ++ [.ends phrase ending after])) =
        madeIn inside := by
      simp only [madeIn_cons, madeIn_append, madeIn_nil, making, List.append_nil]
      rfl
    refine ⟨.begins sound (chronicle.append ?_), by rwa [all], by rwa [all]⟩
    rw [← List.append_nil (made ++ madeIn inside)] at soundAfter known
    exact .event (making ending after) (.refl _) soundAfter known

/-- The evaluation of a phrase that makes a closure. -/
theorem making (call : Caller) (phrase : Phrase) {closure : Closure} {after : Machine}
    (sound : machine.Sound made)
    (ran : (phrase.run call).perform machine = (.ok (some (.function closure)), after))
    (makes : (Event.ends phrase (.ok (some (.function closure))) after).made = [closure])
    (kept : machine.store.LinksKept after.store) (soundAfter : after.Sound (made ++ [closure])) :
    Records made machine (phrase.run call) (phrase.around call machine []) Known := by
  unfold Records Phrase.around
  rw [ran]
  have known : Known (made ++ [closure]) (some (.function closure)) :=
    known_some (Value.known_function (List.mem_append_right made (List.mem_singleton_self closure)))
  have all : madeIn (.begins phrase machine ::
      ([] ++ [.ends phrase (.ok (some (.function closure))) after])) = [closure] := by
    simp only [List.nil_append, madeIn_cons, madeIn_nil, makes, List.append_nil]
    rfl
  exact ⟨.begins sound (.event makes kept soundAfter known), by rwa [all], by rwa [all]⟩

end Records

end ScopeScript
