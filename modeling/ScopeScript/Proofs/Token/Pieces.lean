import ScopeScript.Proofs.Token.Lexeme

namespace ScopeScript

/-- A text has blanks only, or blanks, then a token that goes as far as it can, then
a text again. -/
inductive Pieces : List Char → Prop
  | blank {text : List Char} : (∀ c ∈ text, isBlank c = true) → Pieces text
  | token {gap more rest : List Char} {first : Char} {kind : Kind} :
      (∀ c ∈ gap, isBlank c = true) → kind.Fits (first :: more) →
      (∀ c ∈ rest.head?, kind.takes c = false) → Pieces rest →
      Pieces (gap ++ first :: more ++ rest)

theorem isBlank_head_of_dropWhile {text rest : List Char} {first : Char}
    (begins : text.dropWhile isBlank = first :: rest) : isBlank first = false := by
  have stopped := List.head?_dropWhile_not isBlank text
  rwa [begins] at stopped

theorem not_takes_head_dropWhile (class? : Char → Bool) (text : List Char) :
    ∀ c ∈ (text.dropWhile class?).head?, class? c = false := by
  intro c begins
  have stopped := List.head?_dropWhile_not class? text
  rwa [Option.mem_def.mp begins] at stopped

/-- Every text comes apart like this, so facts about scanning go by its pieces. -/
theorem Pieces.of (text : List Char) : Pieces text := by
  have whole : text.takeWhile isBlank ++ text.dropWhile isBlank = text :=
    List.takeWhile_append_dropWhile
  cases begins : text.dropWhile isBlank with
  | nil => exact .blank (List.dropWhile_eq_nil_iff.mp begins)
  | cons first rest =>
    have solid := isBlank_head_of_dropWhile begins
    obtain ⟨kind, fits⟩ : ∃ kind : Kind, kind.Fits (first :: rest.takeWhile (continues first)) :=
      ⟨_, Kind.fits_of_continues solid rest⟩
    have ends : ∀ c ∈ (rest.dropWhile (continues first)).head?, kind.takes c = false := by
      rw [← fits.continues_eq]
      exact not_takes_head_dropWhile (continues first) rest
    have shorter : (rest.dropWhile (continues first)).length < text.length := by
      have inside := Cursor.length_dropWhile_le (continues first) rest
      have lengths := congrArg List.length whole
      rw [begins, List.length_append, List.length_cons] at lengths
      omega
    have gap : ∀ c ∈ text.takeWhile isBlank, isBlank c = true := fun c member =>
      List.mem_takeWhile_imp member
    have pieces := Pieces.token gap fits ends (Pieces.of (rest.dropWhile (continues first)))
    rwa [List.append_assoc, List.cons_append, List.takeWhile_append_dropWhile, ← begins,
      whole] at pieces
termination_by text.length

namespace Cursor

variable {gap more rest : List Char} {first : Char} {kind : Kind}

theorem next_of_blank (blank : ∀ c ∈ rest, isBlank c = true) (position : Position) :
    (Cursor.mk rest position).next =
      (⟨.endOfInput, "", position.afterAll rest⟩, ⟨[], position.afterAll rest⟩) := by
  have all := List.dropWhile_eq_nil_iff.mpr blank
  have run := List.takeWhile_eq_self_iff.mpr blank
  simp only [next, skip, all, run]

/-- A token stands behind its blanks, at the place of its first character. -/
theorem next_of_fits (blank : ∀ c ∈ gap, isBlank c = true) (fits : kind.Fits (first :: more))
    (ends : ∀ c ∈ rest.head?, kind.takes c = false) (position : Position) :
    (Cursor.mk (gap ++ first :: more ++ rest) position).next =
      (⟨kind, String.ofList (first :: more), (position.afterAll gap).after first⟩,
        ⟨rest, position.afterAll (gap ++ first :: more)⟩) := by
  have solid := fits.isBlank_eq_false first List.mem_cons_self
  have stop : rest.takeWhile kind.takes = [] ∧ rest.dropWhile kind.takes = rest := by
    cases rest with
    | nil => exact ⟨rfl, rfl⟩
    | cons c rest => simp [ends c rfl]
  have skipped : (gap ++ first :: more ++ rest).dropWhile isBlank = first :: (more ++ rest) := by
    rw [List.append_assoc, List.dropWhile_append_of_pos blank, List.cons_append,
      List.dropWhile_cons_of_neg (by simp [solid])]
  have passed : (gap ++ first :: more ++ rest).takeWhile isBlank = gap := by
    rw [List.append_assoc, List.takeWhile_append_of_pos blank, List.cons_append,
      List.takeWhile_cons_of_neg (by simp [solid]), List.append_nil]
  have run : (more ++ rest).takeWhile kind.takes = more := by
    rw [List.takeWhile_append_of_pos fits.takes_of_mem, stop.1, List.append_nil]
  have left : (more ++ rest).dropWhile kind.takes = rest := by
    rw [List.dropWhile_append_of_pos fits.takes_of_mem, stop.2]
  simp only [next, skip, skipped, passed, fits.continues_eq, run, left, fits.ofLexeme_eq,
    Position.afterAll_append, Position.afterAll_cons]

theorem collect_of_blank (blank : ∀ c ∈ rest, isBlank c = true) (position : Position) :
    (Cursor.mk rest position).collect [] = [⟨.endOfInput, "", position.afterAll rest⟩] := by
  rw [collect]
  simp only [next_of_blank blank, if_true, List.reverse_singleton]

theorem collect_of_fits (blank : ∀ c ∈ gap, isBlank c = true) (fits : kind.Fits (first :: more))
    (ends : ∀ c ∈ rest.head?, kind.takes c = false) (position : Position) :
    (Cursor.mk (gap ++ first :: more ++ rest) position).collect [] =
      ⟨kind, String.ofList (first :: more), (position.afterAll gap).after first⟩ ::
        (Cursor.mk rest (position.afterAll (gap ++ first :: more))).collect [] := by
  rw [collect]
  simp only [next_of_fits blank fits ends, if_neg fits.ne_endOfInput]
  rw [collect_eq, List.reverse_singleton, List.singleton_append]

end Cursor

/-- Every token but the end has a lexeme of its kind. -/
theorem Pieces.fits {text : List Char} (pieces : Pieces text) (position : Position) :
    ∀ token ∈ (Cursor.mk text position).collect [], token.kind ≠ .endOfInput →
      token.kind.Fits token.lexeme.toList := by
  induction pieces generalizing position with
  | blank blank =>
    rw [Cursor.collect_of_blank blank]
    intro token member more
    cases List.mem_singleton.mp member
    exact absurd rfl more
  | token blank fits ends _ ih =>
    rw [Cursor.collect_of_fits blank fits ends]
    refine List.forall_mem_cons.mpr ⟨fun _ => ?_, ih _⟩
    rwa [String.toList_ofList]

theorem scan_fits (text : String) :
    ∀ token ∈ scan text, token.kind ≠ .endOfInput → token.kind.Fits token.lexeme.toList :=
  (Pieces.of text.toList).fits .start

end ScopeScript
