import ScopeScript.Proofs.Reading.Descent

namespace ScopeScript

namespace Parser

/-- At the end of the text no move is left. -/
theorem advance_of_ended {parser : Parser} (ended : parser.current.kind = .endOfInput) :
    parser.advance = parser := by
  obtain ⟨current, peek, rest, errors, atEnd, behindEnd⟩ := parser
  cases atEnd ended
  unfold advance
  congr 1 <;> rw [behindEnd ended]

theorem ahead_of_ended {parser : Parser} (ended : parser.current.kind = .endOfInput) :
    parser.ahead = [parser.current] := by
  rw [ahead, if_pos ended]

/-- A move passes the current token. -/
theorem ahead_of_more {parser : Parser} (more : parser.current.kind ≠ .endOfInput) :
    parser.ahead = parser.current :: parser.advance.ahead := by
  rw [ahead, if_neg more, ahead]
  change _ = parser.current :: if parser.peek.kind = .endOfInput then [parser.peek] else
    parser.peek :: if parser.rest.next.1.kind = .endOfInput then [parser.rest.next.1]
      else parser.rest.next.1 :: parser.rest.next.2.collect []
  by_cases ended : parser.peek.kind = .endOfInput
  · rw [if_pos ended, if_pos ended]
  · rw [if_neg ended, if_neg ended]
    by_cases last : parser.rest.next.1.kind = .endOfInput
    · rw [if_pos last, Cursor.collect_of_ended last]
    · rw [if_neg last, Cursor.collect_of_more last]

/-- At first the tokens ahead are those of the whole text. -/
theorem ahead_start (text : String) : (start text).ahead = scan text := by
  rw [ahead, scan]
  change (if (Cursor.ofString text).next.1.kind = .endOfInput then [(Cursor.ofString text).next.1]
    else (Cursor.ofString text).next.1 ::
      if (Cursor.ofString text).next.2.next.1.kind = .endOfInput then
        [(Cursor.ofString text).next.2.next.1]
      else (Cursor.ofString text).next.2.next.1 ::
        (Cursor.ofString text).next.2.next.2.collect []) = _
  generalize Cursor.ofString text = cursor
  by_cases ended : cursor.next.1.kind = .endOfInput
  · rw [if_pos ended, Cursor.collect_of_ended ended]
  · rw [if_neg ended, Cursor.collect_of_more ended]
    by_cases last : cursor.next.2.next.1.kind = .endOfInput
    · rw [if_pos last, Cursor.collect_of_ended last]
    · rw [if_neg last, Cursor.collect_of_more last]

theorem exists_ahead_eq_cons (parser : Parser) :
    ∃ more, parser.ahead = parser.current :: more := by
  by_cases ended : parser.current.kind = .endOfInput
  · exact ⟨[], ahead_of_ended ended⟩
  · exact ⟨_, ahead_of_more ended⟩

/-- A move leaves one token less. -/
theorem left_of_more {parser : Parser} (more : parser.current.kind ≠ .endOfInput) :
    parser.left = parser.advance.left + 1 := by
  obtain ⟨rest, begins⟩ := parser.advance.exists_ahead_eq_cons
  rw [left, left, ahead_of_more more, begins]
  rfl

/-- No move leaves more tokens. -/
theorem left_advance_le (parser : Parser) : parser.advance.left ≤ parser.left := by
  by_cases ended : parser.current.kind = .endOfInput
  · rw [advance_of_ended ended]
  · rw [left_of_more ended]
    exact Nat.le_succ _

/-- If there is a token behind the current one, then the current one is not the end. -/
theorem left_advance_lt_of_peek {parser : Parser} (more : parser.peek.kind ≠ .endOfInput) :
    parser.advance.left < parser.left := by
  have inside : parser.current.kind ≠ .endOfInput := by
    intro ended
    rw [parser.atEnd ended] at more
    exact more ended
  rw [left_of_more inside]
  exact Nat.lt_succ_self _

/-- The second parser stands some moves behind the first, and these are the tokens that it moved
over. Errors may have been recorded. -/
inductive Passes (before : Parser) : List Token → Parser → Prop
  | refl : Passes before [] before
  | advance {tokens : List Token} {after : Parser} :
    Passes before tokens after → Passes before (tokens ++ [after.current]) after.advance
  | record {tokens : List Token} {after : Parser} (error : SyntaxError) :
    Passes before tokens after → Passes before tokens (after.record error)

theorem Passes.append {before between after : Parser} {first more : List Token}
    (passes : before.Passes first between) (further : between.Passes more after) :
    before.Passes (first ++ more) after := by
  induction further with
  | refl => rwa [List.append_nil]
  | advance _ ih =>
    rw [← List.append_assoc]
    exact ih.advance
  | record error _ ih => exact ih.record error

/-- The tokens that were passed and those ahead are all that there were, and then the end token
once more for each move that was none. -/
theorem Passes.append_ahead {before after : Parser} {tokens : List Token}
    (passes : before.Passes tokens after) :
    ∃ extra, tokens ++ after.ahead = before.ahead ++ List.replicate extra after.current ∧
      (extra ≠ 0 → after.current.kind = .endOfInput) := by
  induction passes with
  | refl => exact ⟨0, by simp, fun nonzero => absurd rfl nonzero⟩
  | @advance tokens after _ ih =>
    obtain ⟨extra, same, reached⟩ := ih
    by_cases ended : after.current.kind = .endOfInput
    · refine ⟨extra + 1, ?_, fun _ => by rwa [advance_of_ended ended]⟩
      rw [advance_of_ended ended, ahead_of_ended ended] at *
      rw [same, List.append_assoc, List.replicate_succ']
    · have none : extra = 0 := by_contra fun nonzero => ended (reached nonzero)
      refine ⟨0, ?_, fun nonzero => absurd rfl nonzero⟩
      rw [none, ahead_of_more ended] at same
      simpa using same
  | record error _ ih => exact ih

/-- The second parser stands some moves behind the first. -/
def Moves (before after : Parser) : Prop :=
  ∃ tokens, before.Passes tokens after

namespace Moves

variable {before between after : Parser}

theorem refl (parser : Parser) : parser.Moves parser :=
  ⟨[], .refl⟩

theorem advance (parser : Parser) : parser.Moves parser.advance :=
  ⟨_, Passes.refl.advance⟩

theorem record (moves : before.Moves after) (error : SyntaxError) :
    before.Moves (after.record error) :=
  let ⟨tokens, passes⟩ := moves
  ⟨tokens, passes.record error⟩

theorem trans (first : before.Moves between) (second : between.Moves after) :
    before.Moves after :=
  let ⟨tokens, passes⟩ := first
  let ⟨more, further⟩ := second
  ⟨tokens ++ more, passes.append further⟩

/-- However many moves, and errors recorded between them, no token comes back. -/
theorem left_le (moves : before.Moves after) : after.left ≤ before.left := by
  obtain ⟨tokens, passes⟩ := moves
  induction passes with
  | refl => exact Nat.le_refl _
  | advance _ ih => exact Nat.le_trans (left_advance_le _) ih
  | record error _ ih => exact ih

/-- Where no end was, a further move passes a token, or the end is reached and so many tokens
were passed before. -/
theorem left_advance_lt (moves : before.Moves after) (more : before.current.kind ≠ .endOfInput) :
    after.advance.left < before.left := by
  by_cases ended : after.current.kind = .endOfInput
  · rw [advance_of_ended ended, left, ahead_of_ended ended, left_of_more more]
    exact Nat.succ_pos _
  · have passes := left_of_more ended
    have stays := moves.left_le
    omega

end Moves

end Parser

namespace Parse

variable {α β : Type}

@[simp] theorem perform_throw (error : SyntaxError) (parser : Parser) :
    perform (throw error : Parse α) parser = some (.error error, parser) := rfl

@[simp] theorem perform_look (parser : Parser) :
    perform look parser = some (.ok parser, parser) := rfl

@[simp] theorem perform_advance (parser : Parser) :
    perform advance parser = some (.ok (), parser.advance) := rfl

theorem perform_bind (first : Parse α) (next : α → Parse β) (parser : Parser) :
    perform (first >>= next) parser =
      match perform first parser with
      | none => none
      | some (.ok value, after) => perform (next value) after
      | some (.error error, after) => some (.error error, after) := by
  simp only [perform, bind, ExceptT.bind, ExceptT.mk, StateT.bind, ExceptT.run, StateT.run]
  rcases first parser with - | ⟨ending, after⟩
  · rfl
  · cases ending <;> rfl

/-- An error is handled where the parser has come to; nothing that was read is taken back. -/
theorem perform_tryCatch (first : Parse α) (handle : SyntaxError → Parse α) (parser : Parser) :
    perform (tryCatch first handle) parser =
      match perform first parser with
      | some (.error error, after) => perform (handle error) after
      | other => other := by
  simp only [perform, tryCatch, tryCatchThe, MonadExceptOf.tryCatch, ExceptT.tryCatch, ExceptT.mk,
    ExceptT.run, bind, StateT.bind, StateT.run]
  rcases first parser with - | ⟨ending, after⟩
  · rfl
  · cases ending <;> rfl

end Parse

end ScopeScript
