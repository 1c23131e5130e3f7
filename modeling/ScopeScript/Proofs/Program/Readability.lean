import Mathlib.Data.List.TakeWhile
import ScopeScript.Program.Sexpr

namespace ScopeScript

/-- The characters that no atom holds. Each ends the atom before it. -/
def Sexpr.separates (c : Char) : Bool :=
  c == '(' || c == ')' || c == ' ' || c == '\n'

theorem Sexpr.separates_cases {c : Char} (separator : separates c = true) :
    c = '(' ∨ c = ')' ∨ c = ' ' ∨ c = '\n' := by
  simpa only [separates, Bool.or_eq_true, beq_iff_eq, or_assoc] using separator

/-- Texts that can be told from what stands around them. -/
structure Sexpr.IsAtom (text : String) : Prop where
  ne_empty : text ≠ ""
  solid : ∀ c ∈ text.toList, separates c = false

instance (text : String) : Decidable (Sexpr.IsAtom text) :=
  decidable_of_iff (text ≠ "" ∧ text.toList.all (fun c => !Sexpr.separates c) = true)
    ⟨fun ⟨some?, solid⟩ => ⟨some?, fun c member => by simpa using List.all_eq_true.mp solid c member⟩,
      fun atom => ⟨atom.ne_empty, List.all_eq_true.mpr fun c member => by simp [atom.solid c member]⟩⟩

mutual

/-- Every atom of the tree can be told from what stands around it. -/
def Sexpr.Solid : Sexpr → Prop
  | .atom text => IsAtom text
  | .list items => Sexpr.AllSolid items

def Sexpr.AllSolid : List Sexpr → Prop
  | [] => True
  | item :: more => item.Solid ∧ Sexpr.AllSolid more

end

attribute [simp] Sexpr.Solid Sexpr.AllSolid

instance (text : String) : Decidable (Sexpr.atom text).Solid :=
  inferInstanceAs (Decidable (Sexpr.IsAtom text))

namespace Sexpr

/-- The text between the parentheses of a list. -/
def inside : List Sexpr → List Char
  | [] => []
  | item :: more => item.render.toList ++ (renderMore more).toList

theorem toList_render_list (items : List Sexpr) :
    (list items).render.toList = '(' :: (inside items ++ [')']) := by
  cases items with
  | nil => rfl
  | cons item more => simp [render, inside]

theorem toList_renderMore_cons (item : Sexpr) (more : List Sexpr) :
    (renderMore (item :: more)).toList = ' ' :: inside (item :: more) := by
  simp [renderMore, inside]

/-- What stands behind a tree: nothing, or a character that ends it. -/
def Ends (rest : List Char) : Prop := ∀ c ∈ rest.head?, separates c = true

theorem ends_cons {c : Char} (separator : separates c = true) (rest : List Char) : Ends (c :: rest) := by
  rintro d first
  cases Option.mem_some.mp first
  exact separator

theorem ends_renderMore (items : List Sexpr) (rest : List Char) :
    Ends ((renderMore items).toList ++ ')' :: rest) := by
  cases items with
  | nil => exact ends_cons rfl rest
  | cons item more =>
    rw [toList_renderMore_cons]
    exact ends_cons rfl _

theorem IsAtom.takeWhile_append {text : String} (atom : IsAtom text) {rest : List Char}
    (ends : Ends rest) :
    (text.toList ++ rest).takeWhile (fun c => !separates c) = text.toList := by
  have none : rest.takeWhile (fun c => !separates c) = [] := by
    cases rest with
    | nil => rfl
    | cons c rest => simp [ends c rfl]
  have whole : ∀ c ∈ text.toList, (!separates c) = true := fun c member => by
    rw [atom.solid c member]
    rfl
  rw [List.takeWhile_append_of_pos whole, none, List.append_nil]

/-- A solid tree begins with an opening parenthesis or with a character of an atom. -/
theorem exists_head_render {tree : Sexpr} (solid : tree.Solid) :
    ∃ c text, tree.render.toList = c :: text ∧ (separates c = true → c = '(') := by
  cases tree with
  | atom word =>
    obtain ⟨c, text, spelled⟩ : ∃ c text, word.toList = c :: text :=
      List.exists_cons_of_ne_nil (mt String.toList_eq_nil_iff.mp solid.ne_empty)
    have first := solid.solid c (spelled ▸ List.mem_cons_self)
    exact ⟨c, text, spelled, fun separator => absurd (first.symm.trans separator) Bool.false_ne_true⟩
  | list items => exact ⟨'(', _, toList_render_list items, fun _ => rfl⟩

/-- An atom is not read as a list. -/
theorem atom_append_ne_list {text : String} (atom : IsAtom text) (items : List Sexpr)
    (rest more : List Char) : text.toList ++ rest ≠ (list items).render.toList ++ more := by
  obtain ⟨c, tail, spelled⟩ := List.exists_cons_of_ne_nil (mt String.toList_eq_nil_iff.mp atom.ne_empty)
  have first := atom.solid c (spelled ▸ List.mem_cons_self)
  rw [spelled, toList_render_list]
  intro same
  obtain rfl : c = '(' := (List.cons.inj same).1
  exact absurd first (by decide)

/-- No list is closed where an item of it begins. -/
theorem inside_append_ne_closed {item : Sexpr} (solid : item.Solid) (items : List Sexpr)
    (rest more : List Char) : inside (item :: items) ++ rest ≠ ')' :: more := by
  obtain ⟨c, text, begins, opens⟩ := exists_head_render solid
  rw [inside, begins]
  intro same
  obtain rfl : c = ')' := (List.cons.inj same).1
  exact absurd (opens rfl) (by decide)

/-- Two lists go on behind their first items with items, or end both. -/
theorem inside_of_renderMore {items others : List Sexpr} {rest more : List Char}
    (same : (renderMore items).toList ++ ')' :: rest = (renderMore others).toList ++ ')' :: more) :
    inside items ++ ')' :: rest = inside others ++ ')' :: more := by
  cases items with
  | nil =>
    cases others with
    | nil => exact same
    | cons other others =>
      rw [toList_renderMore_cons] at same
      exact absurd (List.cons.inj same).1 (by decide)
  | cons item items =>
    rw [toList_renderMore_cons] at same
    cases others with
    | nil => exact absurd (List.cons.inj same).1 (by decide)
    | cons other others =>
      rw [toList_renderMore_cons] at same
      exact (List.cons.inj same).2

mutual

/-- A text begins with one tree at most, whatever stands behind it. -/
theorem render_cancel : (tree other : Sexpr) → tree.Solid → other.Solid → (rest more : List Char) →
    Ends rest → Ends more → tree.render.toList ++ rest = other.render.toList ++ more →
      tree = other ∧ rest = more
  | .atom text, .atom word, solid, otherSolid, rest, more, ends, otherEnds, same => by
    simp only [render] at same
    have first := congrArg (List.takeWhile fun c => !separates c) same
    rw [solid.takeWhile_append ends, otherSolid.takeWhile_append otherEnds] at first
    rw [first] at same
    exact ⟨congrArg atom (String.toList_inj.mp first), List.append_cancel_left same⟩
  | .atom text, .list others, solid, _, rest, more, _, _, same =>
    absurd same (atom_append_ne_list solid others rest more)
  | .list items, .atom word, _, otherSolid, rest, more, _, _, same =>
    absurd same.symm (atom_append_ne_list otherSolid items more rest)
  | .list items, .list others, solid, otherSolid, rest, more, _, _, same => by
    rw [toList_render_list, toList_render_list] at same
    simp only [List.cons_append, List.append_assoc, List.nil_append, List.cons.injEq, true_and] at same
    obtain ⟨rfl, behind⟩ := inside_cancel items others solid otherSolid rest more same
    exact ⟨rfl, behind⟩

/-- The items of a list are known from its text up to the closing parenthesis. -/
theorem inside_cancel : (items others : List Sexpr) → AllSolid items → AllSolid others →
    (rest more : List Char) → inside items ++ ')' :: rest = inside others ++ ')' :: more →
      items = others ∧ rest = more
  | [], [], _, _, rest, more, same => ⟨rfl, (List.cons.inj same).2⟩
  | [], other :: others, _, otherSolid, rest, more, same =>
    absurd same.symm (inside_append_ne_closed otherSolid.1 others _ rest)
  | item :: items, [], solid, _, rest, more, same =>
    absurd same (inside_append_ne_closed solid.1 items _ more)
  | item :: items, other :: others, solid, otherSolid, rest, more, same => by
    rw [inside, inside, List.append_assoc, List.append_assoc] at same
    obtain ⟨rfl, behind⟩ := render_cancel item other solid.1 otherSolid.1 _ _
      (ends_renderMore items rest) (ends_renderMore others more) same
    obtain ⟨rfl, behindAll⟩ := inside_cancel items others solid.2 otherSolid.2 rest more
      (inside_of_renderMore behind)
    exact ⟨rfl, behindAll⟩

end

theorem render_injective {tree other : Sexpr} (solid : tree.Solid) (otherSolid : other.Solid)
    (same : tree.render = other.render) : tree = other := by
  have none : Ends [] := fun c first => absurd first (Option.not_mem_none c)
  have texts : tree.render.toList ++ [] = other.render.toList ++ [] := by rw [same]
  exact (render_cancel tree other solid otherSolid [] [] none none texts).1

mutual

/-- A tree is rendered on one line. -/
theorem newline_not_mem_render : (tree : Sexpr) → tree.Solid → '\n' ∉ tree.render.toList
  | .atom text, solid => fun member => absurd (solid.solid _ member) (by decide)
  | .list items, solid => by
    rw [toList_render_list]
    simp [newline_not_mem_inside items solid]

theorem newline_not_mem_inside : (items : List Sexpr) → AllSolid items → '\n' ∉ inside items
  | [], _ => List.not_mem_nil
  | [item], solid => by
    simpa [inside, renderMore] using newline_not_mem_render item solid.1
  | item :: next :: more, solid => by
    rw [inside, toList_renderMore_cons]
    simp [newline_not_mem_render item solid.1, newline_not_mem_inside (next :: more) solid.2]

end

end Sexpr

end ScopeScript
