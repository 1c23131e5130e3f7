import Mathlib.Data.Prod.Lex
import ScopeScript.Proofs.Token.Pieces

namespace ScopeScript

/-- Places are ordered by lines first and by columns on a line. -/
def Position.key (position : Position) : ℕ ×ₗ ℕ := toLex (position.line, position.column)

theorem Position.key_lt_after (position : Position) (c : Char) :
    position.key < (position.after c).key := by
  unfold Position.key Position.after
  rw [Prod.Lex.toLex_lt_toLex]
  split
  · exact .inl (Nat.lt_succ_self _)
  · exact .inr ⟨rfl, Nat.lt_succ_self _⟩

theorem Position.key_le_afterAll (position : Position) (text : List Char) :
    position.key ≤ (position.afterAll text).key := by
  induction text generalizing position with
  | nil => exact le_rfl
  | cons c text ih => exact (position.key_lt_after c).le.trans (ih (position.after c))

/-- The one token stands before the other. Only the end of a text may share the place of
the token before it, if that is a single character. -/
structure Token.Before (earlier later : Token) : Prop where
  more : earlier.kind ≠ .endOfInput
  le : earlier.position.key ≤ later.position.key
  lt : later.kind ≠ .endOfInput → earlier.position.key < later.position.key

/-- Tokens are found in the order of their places, all of them behind the cursor. -/
theorem Pieces.ordered {text : List Char} (pieces : Pieces text) (position : Position) :
    ((Cursor.mk text position).collect []).Pairwise Token.Before ∧
      ∀ token ∈ (Cursor.mk text position).collect [], position.key ≤ token.position.key ∧
        (token.kind ≠ .endOfInput → position.key < token.position.key) := by
  induction pieces generalizing position with
  | @blank text blank =>
    rw [Cursor.collect_of_blank blank]
    refine ⟨List.pairwise_singleton _ _, fun token member => ?_⟩
    rw [List.mem_singleton.mp member]
    exact ⟨position.key_le_afterAll text, fun more => absurd rfl more⟩
  | @token gap more rest first kind blank fits ends _ ih =>
    obtain ⟨ordered, behind⟩ := ih (position.afterAll (gap ++ first :: more))
    have starts : position.key < ((position.afterAll gap).after first).key :=
      (position.key_le_afterAll gap).trans_lt (Position.key_lt_after _ first)
    have stops : ((position.afterAll gap).after first).key ≤
        (position.afterAll (gap ++ first :: more)).key := by
      rw [Position.afterAll_append, Position.afterAll_cons]
      exact Position.key_le_afterAll _ more
    rw [Cursor.collect_of_fits blank fits ends]
    refine ⟨List.pairwise_cons.mpr ⟨fun later member => ?_, ordered⟩,
      List.forall_mem_cons.mpr ⟨⟨starts.le, fun _ => starts⟩, fun later member => ?_⟩⟩
    · obtain ⟨le, lt⟩ := behind later member
      exact ⟨fits.ne_endOfInput, stops.trans le, fun inside => stops.trans_lt (lt inside)⟩
    · obtain ⟨le, _⟩ := behind later member
      exact ⟨(starts.le.trans stops).trans le, fun _ => (starts.trans_le stops).trans_le le⟩

/-- The tokens of a text stand in the order of their places. -/
theorem scan_ordered (text : String) : (scan text).Pairwise Token.Before :=
  ((Pieces.of text.toList).ordered .start).1

end ScopeScript
