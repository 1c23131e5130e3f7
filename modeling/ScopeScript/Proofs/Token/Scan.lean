import ScopeScript.Token.Cursor

namespace ScopeScript

theorem Cursor.collect_ends (cursor : Cursor) :
    ∃ body last, cursor.collect [] = body ++ [last] ∧ last.kind = .endOfInput ∧
      ∀ token ∈ body, token.kind ≠ .endOfInput := by
  rw [collect]
  by_cases ended : cursor.next.1.kind = .endOfInput
  · exact ⟨[], cursor.next.1, by simp [ended], ended, by simp⟩
  · obtain ⟨body, last, rest, atEnd, inside⟩ := collect_ends cursor.next.2
    refine ⟨cursor.next.1 :: body, last, ?_, atEnd, ?_⟩
    · simp only [if_neg ended]
      rw [collect_eq, rest]
      rfl
    · intro token member
      rcases List.mem_cons.mp member with same | later
      · exact same ▸ ended
      · exact inside token later
termination_by cursor.rest.length
decreasing_by exact next_shorter ended

/-- The end of a text is its last token and no other. -/
theorem scan_ends (text : String) :
    ∃ body last, scan text = body ++ [last] ∧ last.kind = .endOfInput ∧
      ∀ token ∈ body, token.kind ≠ .endOfInput :=
  Cursor.collect_ends (.ofString text)

end ScopeScript
