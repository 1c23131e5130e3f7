import ScopeScript.Text.Alphabetic
import ScopeScript.Text.Blank
import ScopeScript.Token.Kind

namespace ScopeScript

/-- The code points of all blank characters. -/
def blankPoints : List Nat :=
  List.range' 0x9 5 ++ [0x20, 0x85, 0xA0, 0x1680] ++ List.range' 0x2000 11 ++
    [0x2028, 0x2029, 0x202F, 0x205F, 0x3000]

/-- The class of blanks is a short list of code points, which other classes are checked against. -/
theorem toNat_mem_blankPoints {c : Char} (blank : isBlank c = true) : c.toNat ∈ blankPoints := by
  simp only [isBlank, Bool.or_eq_true, Bool.and_eq_true, decide_eq_true_eq, beq_iff_eq] at blank
  simp only [blankPoints, List.mem_append, List.mem_range'_1, List.mem_cons, List.not_mem_nil,
    or_false]
  omega

theorem toNat_of_isDigit {c : Char} (digit : c.isDigit = true) : 48 ≤ c.toNat ∧ c.toNat ≤ 57 := by
  simp only [Char.isDigit, Bool.and_eq_true, decide_eq_true_eq] at digit
  exact digit

theorem isBlank_of_isDigit {c : Char} (digit : c.isDigit = true) : isBlank c = false := by
  have bounds := toNat_of_isDigit digit
  have apart : ∀ point ∈ blankPoints, ¬ (48 ≤ point ∧ point ≤ 57) := by decide
  exact Bool.eq_false_iff.mpr fun blank => apart _ (toNat_mem_blankPoints blank) bounds

/-- No range of letters holds a blank: the search for it ends between two ranges. -/
theorem isBlank_of_isAlphabetic {c : Char} (letter : isAlphabetic c = true) :
    isBlank c = false := by
  have apart : ∀ point ∈ blankPoints, inRanges point alphabeticRanges = false := by decide +kernel
  refine Bool.eq_false_iff.mpr fun blank => ?_
  rw [isAlphabetic, apart _ (toNat_mem_blankPoints blank)] at letter
  exact Bool.false_ne_true letter

/-- The digits come before all letters. -/
theorem isDigit_of_isAlphabetic {c : Char} (letter : isAlphabetic c = true) :
    c.isDigit = false := by
  refine Bool.eq_false_iff.mpr fun digit => ?_
  have bounds := toNat_of_isDigit digit
  unfold isAlphabetic alphabeticRanges at letter
  rw [inRanges, if_pos (by omega)] at letter
  exact Bool.false_ne_true letter

namespace Punctuation

theorem isBlank_character (sign : Punctuation) : isBlank sign.character = false := by
  cases sign <;> rfl

theorem isDigit_character (sign : Punctuation) : sign.character.isDigit = false := by
  cases sign <;> rfl

/-- The signs stand in no other class, so the first character tells the kind of a token. -/
theorem isAlphabetic_character (sign : Punctuation) : isAlphabetic sign.character = false := by
  cases sign <;> rfl

theorem character_ne_of_isDigit {c : Char} (digit : c.isDigit = true) (sign : Punctuation) :
    sign.character ≠ c := by
  rintro rfl
  rw [sign.isDigit_character] at digit
  exact Bool.false_ne_true digit

theorem character_ne_of_isAlphabetic {c : Char} (letter : isAlphabetic c = true)
    (sign : Punctuation) : sign.character ≠ c := by
  rintro rfl
  rw [sign.isAlphabetic_character] at letter
  exact Bool.false_ne_true letter

theorem ofCharacter?_eq_none_iff {c : Char} :
    ofCharacter? c = none ↔ ∀ sign : Punctuation, sign.character ≠ c := by
  constructor
  · rintro unknown sign rfl
    rw [ofCharacter?_character] at unknown
    exact Option.some_ne_none sign unknown
  · intro other
    cases found : ofCharacter? c with
    | none => rfl
    | some sign => exact absurd (character_of_ofCharacter? found) (other sign)

end Punctuation

end ScopeScript
