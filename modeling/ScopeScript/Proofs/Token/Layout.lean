import Mathlib.Logic.Relation
import ScopeScript.Proofs.Token.Joining

namespace ScopeScript

/-- No token of the text reaches over the place between its two parts. -/
def Between (before behind : List Char) : Prop :=
  ∀ run : Run, run.StandsIn (before ++ behind) →
    run.stop ≤ before.length ∨ before.length ≤ run.start

/-- A text laid out anew in one place: a run of blanks becomes another one, blanks come between
two tokens, or blanks come to an end of the text or go from it. -/
inductive Relaid : List Char → List Char → Prop
  | replace {before gap other behind : List Char} :
      gap ≠ [] → (∀ c ∈ gap, isBlank c = true) → other ≠ [] → (∀ c ∈ other, isBlank c = true) →
      Relaid (before ++ gap ++ behind) (before ++ other ++ behind)
  | insert {before gap behind : List Char} :
      (∀ c ∈ gap, isBlank c = true) → Between before behind →
      Relaid (before ++ behind) (before ++ gap ++ behind)
  | addLeading {gap text : List Char} : (∀ c ∈ gap, isBlank c = true) → Relaid text (gap ++ text)
  | dropLeading {gap text : List Char} : (∀ c ∈ gap, isBlank c = true) → Relaid (gap ++ text) text
  | addTrailing {text gap : List Char} : (∀ c ∈ gap, isBlank c = true) → Relaid text (text ++ gap)
  | dropTrailing {text gap : List Char} : (∀ c ∈ gap, isBlank c = true) → Relaid (text ++ gap) text

/-- No token goes on over blanks. -/
theorem Apart.blank {before gap behind : List Char} (some? : gap ≠ [])
    (blank : ∀ c ∈ gap, isBlank c = true) : Apart before (gap ++ behind) := by
  intro c _ d next kind _
  obtain ⟨first, more, rfl⟩ := List.exists_cons_of_ne_nil some?
  cases Option.mem_some.mp next
  exact kind.takes_blank (blank d List.mem_cons_self)

/-- Blanks keep apart what is apart without them. -/
theorem Apart.blank_append {before gap behind : List Char} (apart : Apart before behind)
    (blank : ∀ c ∈ gap, isBlank c = true) : Apart before (gap ++ behind) := by
  cases gap with
  | nil => exact apart
  | cons c gap => exact .blank (List.cons_ne_nil _ _) blank

theorem Apart.nil_left (behind : List Char) : Apart [] behind := by simp [Apart]

theorem Apart.nil_right (before : List Char) : Apart before [] := by simp [Apart]

/-- The characters of a text from the start of a token to its end are those of its lexeme. -/
theorem Run.StandsIn.getElem?_lexeme {text : List Char} {run : Run} {index : Nat}
    (stands : run.StandsIn text) (behind : run.start ≤ index) (before : index < run.stop) :
    run.token.lexeme.toList[index - run.start]? = text[index]? := by
  have inside : index - run.start < run.token.lexeme.length := by
    unfold Run.stop at before
    omega
  rw [← stands.lexeme, List.getElem?_take_of_lt inside, List.getElem?_drop,
    Nat.add_sub_cancel' behind]

section Place

variable {before behind : List Char} {c d : Char}

theorem getElem?_last (behind : List Char) (last : c ∈ before.getLast?) :
    0 < before.length ∧ (before ++ behind)[before.length - 1]? = some c := by
  rw [Option.mem_def, List.getLast?_eq_getElem?] at last
  have inside := (List.getElem?_eq_some_iff.mp last).1
  exact ⟨by omega, by rw [List.getElem?_append_left inside, last]⟩

theorem getElem?_next : (before ++ behind)[before.length]? = behind.head? := by
  rw [List.getElem?_append_right (Nat.le_refl _), Nat.sub_self, List.head?_eq_getElem?]

/-- The last character before the place is blank, or it is in a token that ends there. -/
theorem Between.apart (between : Between before behind) : Apart before behind := by
  intro c last d next kind taken
  obtain ⟨some?, found⟩ := getElem?_last behind last
  obtain ⟨runs, tokenizes, _⟩ :=
    @Tokenizes.of_collect [] _ (Pieces.of (before ++ behind)) (.nil_left _)
  rw [List.nil_append] at tokenizes
  have covered : ∃ run ∈ runs, run.start ≤ before.length - 1 ∧ before.length - 1 < run.stop := by
    by_contra none
    have blank := tokenizes.covers _ c (Nat.zero_le _) found fun run member => by
      by_contra inside
      exact none ⟨run, member, by omega, by omega⟩
    rw [Kind.isBlank_of_takes taken] at blank
    exact Bool.false_ne_true blank
  obtain ⟨run, member, starts, stops⟩ := covered
  have stands := tokenizes.stands run member
  have ended : run.stop = before.length := by
    have whole := between run stands
    omega
  have inside : c ∈ run.token.lexeme.toList :=
    List.mem_of_getElem? ((stands.getElem?_lexeme starts stops).trans found)
  have ends := stands.behind d
  rw [ended, List.drop_left] at ends
  rw [stands.fits.takes_eq inside taken]
  exact ends next

/-- A token over the place would hold both neighbours. -/
theorem Apart.between (apart : Apart before behind) : Between before behind := by
  intro run stands
  by_contra crosses
  have starts : run.start < before.length := by omega
  have stops : before.length < run.stop := by omega
  have inside : before.length - run.start < run.token.lexeme.toList.length := by
    rw [String.length_toList]
    unfold Run.stop at stops
    omega
  have some? : before ≠ [] := List.length_pos_iff.mp (Nat.zero_lt_of_lt starts)
  obtain ⟨c, last⟩ : ∃ c, c ∈ before.getLast? := ⟨_, List.getLast?_eq_some_getLast some?⟩
  obtain ⟨d, here⟩ : ∃ d, run.token.lexeme.toList[before.length - run.start]? = some d :=
    ⟨_, List.getElem?_eq_getElem inside⟩
  have next : d ∈ behind.head? := by
    rw [Option.mem_def, ← getElem?_next, ← stands.getElem?_lexeme starts.le stops, here]
  have early := stands.getElem?_lexeme (Nat.le_sub_one_of_lt starts) (by omega)
  have inLexeme : c ∈ run.token.lexeme.toList :=
    List.mem_of_getElem? (early.trans (getElem?_last behind last).2)
  -- The next character is not the first one of the token, so the token went on with it.
  have taken : run.token.kind.takes d = true := by
    obtain ⟨first, more, spelled⟩ := List.exists_cons_of_ne_nil stands.fits.ne_nil
    have fits := stands.fits
    rw [spelled] at fits here
    rw [show before.length - run.start = before.length - run.start - 1 + 1 by omega,
      List.getElem?_cons_succ] at here
    exact fits.takes_of_mem d (List.mem_of_getElem? here)
  have other := apart c last d next _ (stands.fits.takes_all taken c inLexeme)
  rw [taken] at other
  exact Bool.false_ne_true other.symm

end Place

namespace Cursor

/-- The words of a text do not depend on where it stands. -/
theorem collect_words (text : List Char) (position place : Position) :
    ((Cursor.mk text position).collect []).map Token.word =
      ((Cursor.mk text place).collect []).map Token.word := by
  induction Pieces.of text generalizing position place with
  | blank blank =>
    rw [collect_of_blank blank, collect_of_blank blank]
    rfl
  | token blank fits ends _ ih =>
    rw [collect_of_fits blank fits ends, collect_of_fits blank fits ends, List.map_cons,
      List.map_cons]
    exact congrArg _ (ih _ _)

/-- Blanks may take the place of other blanks where no token reaches over either. -/
theorem collect_words_gap {gap other : List Char} (before behind : List Char)
    (blank : ∀ c ∈ gap, isBlank c = true)
    (blankOther : ∀ c ∈ other, isBlank c = true) (apart : Apart before (gap ++ behind))
    (apartOther : Apart before (other ++ behind)) (position : Position) :
    ((Cursor.mk (before ++ gap ++ behind) position).collect []).map Token.word =
      ((Cursor.mk (before ++ other ++ behind) position).collect []).map Token.word := by
  obtain ⟨tokens, _, joined⟩ := collect_append (Pieces.of before) position
  rw [List.append_assoc, List.append_assoc, joined _ apart, joined _ apartOther,
    collect_blank_append blank, collect_blank_append blankOther, List.map_append, List.map_append,
    collect_words behind]

end Cursor

/-- A text laid out anew has the same words. -/
theorem Relaid.collect_words {text other : List Char} (relaid : Relaid text other)
    (position : Position) :
    ((Cursor.mk text position).collect []).map Token.word =
      ((Cursor.mk other position).collect []).map Token.word := by
  have nothing : ∀ c ∈ [], isBlank c = true := List.forall_mem_nil _
  cases relaid with
  | replace some? blank someOther blankOther =>
    exact Cursor.collect_words_gap _ _ blank blankOther (.blank some? blank)
      (.blank someOther blankOther) position
  | @insert before gap behind blank between =>
    have same := Cursor.collect_words_gap before behind nothing blank between.apart
      (between.apart.blank_append blank) position
    rwa [List.append_nil] at same
  | addLeading blank =>
    exact Cursor.collect_words_gap [] _ nothing blank (.nil_left _) (.nil_left _) position
  | dropLeading blank =>
    exact Cursor.collect_words_gap [] _ blank nothing (.nil_left _) (.nil_left _) position
  | addTrailing blank =>
    have same := Cursor.collect_words_gap text [] nothing blank (.nil_right text)
      ((Apart.nil_right text).blank_append blank) position
    rwa [List.append_nil, List.append_nil, List.append_nil] at same
  | dropTrailing blank =>
    have same := Cursor.collect_words_gap other [] blank nothing
      ((Apart.nil_right other).blank_append blank) (.nil_right other) position
    rwa [List.append_nil, List.append_nil, List.append_nil] at same

/-- However often a text is laid out anew, its words stay. -/
theorem collect_words_of_relaid {text other : List Char}
    (relaid : Relation.ReflTransGen Relaid text other) (position : Position) :
    ((Cursor.mk text position).collect []).map Token.word =
      ((Cursor.mk other position).collect []).map Token.word := by
  induction relaid with
  | refl => rfl
  | tail _ step ih => exact ih.trans (step.collect_words position)

end ScopeScript
