import Mathlib.Data.List.TakeWhile
import ScopeScript.Proofs.Text.Classes
import ScopeScript.Token.Cursor

namespace ScopeScript

/-- The lexemes that tokens of a kind have. The end of a text has none. -/
inductive Kind.Fits : Kind → List Char → Prop
  | integer {run : List Char} :
      run ≠ [] → (∀ c ∈ run, c.isDigit = true) → Kind.Fits .integer run
  | word {run : List Char} :
      run ≠ [] → (∀ c ∈ run, isAlphabetic c = true) → Kind.Fits (.ofWord (String.ofList run)) run
  | punctuation (sign : Punctuation) : Kind.Fits (.punctuation sign) [sign.character]
  | illegal {c : Char} :
      isBlank c = false → c.isDigit = false → isAlphabetic c = false →
      (∀ sign : Punctuation, sign.character ≠ c) → Kind.Fits .illegal [c]

/-- The characters that a token of the kind goes on with as long as it can. -/
def Kind.takes : Kind → Char → Bool
  | .integer, c => c.isDigit
  | .identifier, c | .keyword _, c => isAlphabetic c
  | _, _ => false

@[simp] theorem Kind.takes_ofWord (word : String) : (Kind.ofWord word).takes = isAlphabetic := by
  unfold Kind.ofWord
  split <;> rfl

theorem Kind.ofWord_ne_endOfInput (word : String) : Kind.ofWord word ≠ .endOfInput := by
  unfold Kind.ofWord
  split <;> simp

theorem Kind.takes_cases {kind : Kind} {c : Char} (taken : kind.takes c = true) :
    c.isDigit = true ∧ kind.takes = Char.isDigit ∨
      isAlphabetic c = true ∧ kind.takes = isAlphabetic := by
  cases kind with
  | integer => exact .inl ⟨taken, rfl⟩
  | identifier => exact .inr ⟨taken, rfl⟩
  | keyword word => exact .inr ⟨taken, rfl⟩
  | _ => exact absurd taken Bool.false_ne_true

theorem Kind.isBlank_of_takes {kind : Kind} {c : Char} (taken : kind.takes c = true) :
    isBlank c = false := by
  rcases Kind.takes_cases taken with ⟨digit, _⟩ | ⟨letter, _⟩
  · exact isBlank_of_isDigit digit
  · exact isBlank_of_isAlphabetic letter

namespace Kind.Fits

variable {kind : Kind} {run rest : List Char} {first : Char}

theorem ne_nil (fits : kind.Fits run) : run ≠ [] := by
  cases fits with
  | integer some? _ => exact some?
  | word some? _ => exact some?
  | _ => exact List.cons_ne_nil _ _

theorem ne_endOfInput (fits : kind.Fits run) : kind ≠ .endOfInput := by
  cases fits with
  | word _ _ => exact Kind.ofWord_ne_endOfInput _
  | _ => simp

/-- No token holds a blank. -/
theorem isBlank_eq_false (fits : kind.Fits run) : ∀ c ∈ run, isBlank c = false := by
  intro c member
  cases fits with
  | integer _ digits => exact isBlank_of_isDigit (digits c member)
  | word _ letters => exact isBlank_of_isAlphabetic (letters c member)
  | punctuation sign => rw [List.mem_singleton.mp member, sign.isBlank_character]
  | illegal solid _ _ _ => rwa [List.mem_singleton.mp member]

/-- All characters behind the first one are there because the token went on. -/
theorem takes_of_mem (fits : kind.Fits (first :: rest)) : ∀ c ∈ rest, kind.takes c = true := by
  intro c member
  cases fits with
  | integer _ digits => exact digits c (List.mem_cons_of_mem _ member)
  | word _ letters =>
    rw [Kind.takes_ofWord]
    exact letters c (List.mem_cons_of_mem _ member)
  | _ => cases member

/-- A token that goes on with anything goes on with all of its characters. -/
theorem takes_all {c : Char} (fits : kind.Fits run) (taken : kind.takes c = true) :
    ∀ d ∈ run, kind.takes d = true := by
  intro d member
  cases fits with
  | integer _ digits => exact digits d member
  | word _ letters =>
    rw [Kind.takes_ofWord]
    exact letters d member
  | _ => exact absurd taken Bool.false_ne_true

/-- The first character decides what the token goes on with. -/
theorem continues_eq (fits : kind.Fits (first :: rest)) : continues first = kind.takes := by
  unfold continues
  cases fits with
  | integer _ digits =>
    rw [if_pos (digits first List.mem_cons_self)]
    rfl
  | word _ letters =>
    have letter := letters first List.mem_cons_self
    rw [if_neg (by simp [isDigit_of_isAlphabetic letter]), if_pos letter, Kind.takes_ofWord]
  | punctuation sign =>
    rw [if_neg (by simp [sign.isDigit_character]), if_neg (by simp [sign.isAlphabetic_character])]
    rfl
  | illegal _ notDigit notLetter _ =>
    rw [if_neg (by simp [notDigit]), if_neg (by simp [notLetter])]
    rfl

theorem ofLexeme_eq (fits : kind.Fits (first :: rest)) :
    Kind.ofLexeme first (String.ofList (first :: rest)) = kind := by
  unfold Kind.ofLexeme
  cases fits with
  | integer _ digits =>
    have digit := digits first List.mem_cons_self
    rw [Punctuation.ofCharacter?_eq_none_iff.mpr (Punctuation.character_ne_of_isDigit digit)]
    exact if_pos digit
  | word _ letters =>
    have letter := letters first List.mem_cons_self
    rw [Punctuation.ofCharacter?_eq_none_iff.mpr (Punctuation.character_ne_of_isAlphabetic letter)]
    dsimp only
    rw [if_neg (by simp [isDigit_of_isAlphabetic letter]), if_pos letter]
  | punctuation sign => rw [Punctuation.ofCharacter?_character]
  | illegal _ notDigit notLetter other =>
    rw [Punctuation.ofCharacter?_eq_none_iff.mpr other]
    dsimp only
    rw [if_neg (by simp [notDigit]), if_neg (by simp [notLetter])]

/-- Tokens that hold a character in common go on with the same characters. -/
theorem takes_eq {other : Kind} {c : Char} (fits : kind.Fits run) (member : c ∈ run)
    (taken : other.takes c = true) : other.takes = kind.takes := by
  rcases Kind.takes_cases taken with ⟨digit, is⟩ | ⟨letter, is⟩
  · cases fits with
    | integer _ _ => exact is
    | word _ letters =>
      rw [isDigit_of_isAlphabetic (letters c member)] at digit
      exact absurd digit Bool.false_ne_true
    | punctuation sign =>
      rw [List.mem_singleton.mp member, sign.isDigit_character] at digit
      exact absurd digit Bool.false_ne_true
    | illegal _ notDigit _ _ =>
      rw [List.mem_singleton.mp member, notDigit] at digit
      exact absurd digit Bool.false_ne_true
  · cases fits with
    | integer _ digits =>
      have digit := digits c member
      rw [isDigit_of_isAlphabetic letter] at digit
      exact absurd digit Bool.false_ne_true
    | word _ _ => rw [is, Kind.takes_ofWord]
    | punctuation sign =>
      rw [List.mem_singleton.mp member, sign.isAlphabetic_character] at letter
      exact absurd letter Bool.false_ne_true
    | illegal _ _ notLetter _ =>
      rw [List.mem_singleton.mp member, notLetter] at letter
      exact absurd letter Bool.false_ne_true

end Kind.Fits

/-- From a character that is no blank, a token goes as far as it can. -/
theorem Kind.fits_of_continues {first : Char} (solid : isBlank first = false) (rest : List Char) :
    (Kind.ofLexeme first (String.ofList (first :: rest.takeWhile (continues first)))).Fits
      (first :: rest.takeWhile (continues first)) := by
  have alone : (continues first = fun _ => false) → rest.takeWhile (continues first) = [] := by
    intro never
    rw [never]
    cases rest <;> rfl
  unfold Kind.ofLexeme
  cases known : Punctuation.ofCharacter? first with
  | some sign =>
    cases Punctuation.character_of_ofCharacter? known
    have never : continues sign.character = fun _ => false := (Fits.punctuation sign).continues_eq
    rw [alone never]
    exact .punctuation sign
  | none =>
    by_cases digit : first.isDigit = true
    · have class? : continues first = Char.isDigit := if_pos digit
      simp only [if_pos digit, class?]
      refine .integer (List.cons_ne_nil _ _) (List.forall_mem_cons.mpr ⟨digit, ?_⟩)
      exact fun c member => List.mem_takeWhile_imp member
    by_cases letter : isAlphabetic first = true
    · have class? : continues first = isAlphabetic := by rw [continues, if_neg digit, if_pos letter]
      simp only [if_neg digit, if_pos letter, class?]
      refine .word (List.cons_ne_nil _ _) (List.forall_mem_cons.mpr ⟨letter, ?_⟩)
      exact fun c member => List.mem_takeWhile_imp member
    · have never : continues first = fun _ => false := by
        rw [continues, if_neg digit, if_neg letter]
      simp only [if_neg digit, if_neg letter, alone never]
      exact .illegal solid (Bool.eq_false_iff.mpr digit) (Bool.eq_false_iff.mpr letter)
        (Punctuation.ofCharacter?_eq_none_iff.mp known)

end ScopeScript
