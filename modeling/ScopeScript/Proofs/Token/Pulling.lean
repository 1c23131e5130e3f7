import Mathlib.Data.Stream.Init
import ScopeScript.Proofs.Token.Pieces
import ScopeScript.Proofs.Token.Scan

namespace ScopeScript

namespace Cursor

/-- Behind the end of a text nothing moves any more: the end token comes again, with the same
position, also where blanks and line feeds were passed to find it. -/
theorem next_of_ended {cursor : Cursor} (ended : cursor.next.1.kind = .endOfInput) :
    cursor.next.2.next = cursor.next := by
  obtain ⟨rest, position⟩ := cursor
  cases Pieces.of rest with
  | blank blank =>
    rw [next_of_blank blank, next_of_blank (List.forall_mem_nil _), Position.afterAll_nil]
  | token blank fits ends _ =>
    rw [next_of_fits blank fits ends] at ended
    exact absurd ended fits.ne_endOfInput

theorem collect_of_ended {cursor : Cursor} (ended : cursor.next.1.kind = .endOfInput) :
    cursor.collect [] = [cursor.next.1] := by
  rw [collect]
  simp only [if_pos ended, List.reverse_singleton]

theorem collect_of_more {cursor : Cursor} (more : cursor.next.1.kind ≠ .endOfInput) :
    cursor.collect [] = cursor.next.1 :: cursor.next.2.collect [] := by
  rw [collect]
  simp only [if_neg more]
  rw [collect_eq, List.reverse_singleton, List.singleton_append]

/-- Pulling goes through the tokens that are collected at once and then stays at the last. -/
theorem pull_eq_take {cursor : Cursor} {body : List Token} {last : Token}
    (collected : cursor.collect [] = body ++ [last]) (atEnd : last.kind = .endOfInput)
    (inside : ∀ token ∈ body, token.kind ≠ .endOfInput) (count : Nat) :
    cursor.pull count = (body ++ₛ Stream'.const last).take count := by
  induction count generalizing cursor body with
  | zero => rfl
  | succ count ih =>
    rw [pull]
    cases body with
    | nil =>
      have ended : cursor.next.1.kind = .endOfInput := by
        by_contra more
        rw [collect_of_more more, List.nil_append, List.cons.injEq] at collected
        exact more (collected.1 ▸ atEnd)
      have same : cursor.next.1 = last := by
        rw [collect_of_ended ended] at collected
        exact (List.cons.inj collected).1
      have again : cursor.next.2.collect [] = [] ++ [last] := by
        have still := next_of_ended ended
        rw [collect_of_ended (by rw [still]; exact ended), still, same, List.nil_append]
      rw [ih again (List.forall_mem_nil _), same]
      rfl
    | cons token body =>
      obtain ⟨first, inside⟩ := List.forall_mem_cons.mp inside
      have more : cursor.next.1.kind ≠ .endOfInput := by
        intro ended
        rw [collect_of_ended ended, List.cons_append, List.cons.injEq] at collected
        exact first (collected.1 ▸ ended)
      rw [collect_of_more more, List.cons_append, List.cons.injEq] at collected
      rw [ih collected.2 inside, collected.1]
      rfl

/-- Every token but the end takes at least one character. -/
theorem length_collect_le (cursor : Cursor) :
    (cursor.collect []).length ≤ cursor.rest.length + 1 := by
  by_cases ended : cursor.next.1.kind = .endOfInput
  · rw [collect_of_ended ended]
    exact Nat.le_add_left 1 _
  · have shorter := next_shorter ended
    have behind := length_collect_le cursor.next.2
    rw [collect_of_more ended, List.length_cons]
    omega
termination_by cursor.rest.length

end Cursor

/-- Tokens may be pulled one by one or scanned all at once. The tokens that are pulled are those
that are scanned, in their order and with their positions, and the last of these over and over.
It is the end of the text, which occurs nowhere before; a text has no more other tokens than
characters. -/
theorem pull_eq_take_scan (text : String) :
    ∃ body last, scan text = body ++ [last] ∧ last.kind = .endOfInput ∧
      (∀ token ∈ body, token.kind ≠ .endOfInput) ∧ (scan text).length ≤ text.length + 1 ∧
      ∀ count, (Cursor.ofString text).pull count =
        (scan text ++ₛ Stream'.const last).take count := by
  obtain ⟨body, last, scanned, atEnd, inside⟩ := scan_ends text
  have short := (Cursor.ofString text).length_collect_le
  refine ⟨body, last, scanned, atEnd, inside, ?_, fun count => ?_⟩
  · rwa [Cursor.ofString, String.length_toList] at short
  · rw [Cursor.pull_eq_take scanned atEnd inside, scanned, Stream'.append_append_stream,
      Stream'.cons_append_stream, Stream'.nil_append_stream, ← Stream'.const_eq]

end ScopeScript
