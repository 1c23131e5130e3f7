import Mathlib.Data.List.Forall2
import ScopeScript.Proofs.Reading.Context
import ScopeScript.Proofs.Reading.Errors
import ScopeScript.Proofs.Token.Order

namespace ScopeScript

open Reader

/-- The error is about the token with this index. -/
def SyntaxError.BlamesAt (tokens : List Token) (error : SyntaxError) (index : Nat) : Prop :=
  ∃ token, tokens[index]? = some token ∧ error.Blames token

/-- An error is about one token of a text only. -/
theorem Token.Before.not_blamed {earlier later : Token} {error : SyntaxError}
    (before : earlier.Before later) (one : error.Blames earlier) : ¬ error.Blames later := by
  intro both
  have same : earlier.kind = later.kind := one.2.found_eq.symm.trans both.2.found_eq
  have lt := before.lt (same ▸ before.more)
  rw [← one.1, ← both.1] at lt
  exact lt_irrefl _ lt

theorem blamed_index_unique {tokens : List Token} (ordered : tokens.Pairwise Token.Before)
    {error : SyntaxError} {i j : Nat} {token other : Token} (first : tokens[i]? = some token)
    (second : tokens[j]? = some other) (one : error.Blames token) (both : error.Blames other) :
    i = j := by
  obtain ⟨iBound, rfl⟩ := List.getElem?_eq_some_iff.mp first
  obtain ⟨jBound, rfl⟩ := List.getElem?_eq_some_iff.mp second
  have apart := List.pairwise_iff_getElem.mp ordered
  rcases Nat.lt_trichotomy i j with lt | same | lt
  · exact absurd both ((apart i j iBound jBound lt).not_blamed one)
  · exact same
  · exact absurd one ((apart j i jBound iBound lt).not_blamed both)

theorem SyntaxError.BlamesAt.unique {tokens : List Token} {error : SyntaxError} {i j : Nat}
    (ordered : tokens.Pairwise Token.Before) (one : error.BlamesAt tokens i)
    (both : error.BlamesAt tokens j) : i = j := by
  obtain ⟨token, first, here⟩ := one
  obtain ⟨other, second, there⟩ := both
  exact blamed_index_unique ordered first second here there

/-- The words of the tokens, each with its index for a line. -/
def Token.numbered (tokens : List Token) : List Token :=
  (tokens.map Token.word).mapIdx fun index word => ⟨word.1, word.2, ⟨index, 0⟩⟩

/-- Where the token with this index for a line stands. -/
def Token.placeIn (tokens : List Token) (index : Position) : Position :=
  (tokens[index.line]?.map Token.position).getD index

theorem Token.moved_numbered (tokens : List Token) :
    (numbered tokens).map (Token.moved (placeIn tokens)) = tokens := by
  refine List.ext_getElem (by simp [numbered]) fun index _ bound => ?_
  simp [numbered, placeIn, Token.moved, Token.word, List.getElem?_eq_getElem bound]

theorem Fault.Concerns.moved {fault : Fault} {token : Token} (concerns : fault.Concerns token)
    (move : Position → Position) : fault.Concerns (token.moved move) := by
  cases concerns with
  | unexpected other => exact .unexpected other
  | noOperand => exact .noOperand
  | illegal is => exact .illegal is
  | tooLarge is => exact .tooLarge is

theorem SyntaxError.Blames.moved {error : SyntaxError} {token : Token} (blames : error.Blames token)
    (move : Position → Position) : (error.moved move).Blames (token.moved move) :=
  ⟨congrArg move blames.1, blames.2.moved move⟩

/-- The errors of a text in their order, each with the index of its token for a line. -/
def marks (tokens : List Token) : List SyntaxError :=
  ((Token.numbered tokens).foldl feed start).errors.reverse

/-- Errors stand where their tokens stand, and nothing else depends on that. -/
theorem errors_eq_marks (tokens : List Token) :
    (tokens.foldl feed start).errors.reverse =
      (marks tokens).map (SyntaxError.moved (Token.placeIn tokens)) := by
  let context : Context := ⟨Token.placeIn tokens, [], []⟩
  have begins : context.around start = start := rfl
  have moved := context.around_foldl start (Token.numbered tokens)
  rw [begins, Token.moved_numbered] at moved
  rw [moved, marks, List.map_reverse]
  exact congrArg List.reverse (List.append_nil _)

/-- Texts with the same words have the same marks. -/
theorem marks_congr {tokens others : List Token}
    (same : tokens.map Token.word = others.map Token.word) : marks tokens = marks others := by
  rw [marks, Token.numbered, same]
  rfl

/-- In a report with indices for lines the one error comes before the other: it is about an
earlier token, or about the same one, which was refused and where a statement may begin is wrong
again. The end of the text may have any number of errors. -/
def SyntaxError.Precedes (earlier later : SyntaxError) : Prop :=
  earlier.position.line < later.position.line ∨
    earlier.position.line = later.position.line ∧
      (later.fault.found = .endOfInput ∨ earlier.fault.Refuses ∧ ¬ later.fault.Refuses)

/-- The errors of a run are about its tokens, in their order. -/
theorem Reader.exists_new_foldl {tokens : List Token}
    (ordered : tokens.Pairwise fun earlier later => earlier.position.line < later.position.line)
    (reader : Reader) :
    ∃ new, (tokens.foldl feed reader).errors = new ++ reader.errors ∧
      (∀ error ∈ new, ∃ token ∈ tokens, error.Blames token) ∧
      new.Pairwise fun later earlier => earlier.Precedes later := by
  induction tokens generalizing reader with
  | nil => exact ⟨[], rfl, List.forall_mem_nil _, .nil⟩
  | cons token tokens ih =>
    obtain ⟨first, ordered⟩ := List.pairwise_cons.mp ordered
    obtain ⟨here, found, about, renewed⟩ := (takes_feed reader token).exists_new
    obtain ⟨behind, added, aboutBehind, sorted⟩ := ih ordered (reader.feed token)
    refine ⟨behind ++ here, by rw [List.foldl_cons, added, found, List.append_assoc], ?_,
      List.pairwise_append.mpr ⟨sorted, ?_, ?_⟩⟩
    · refine List.forall_mem_append.mpr ⟨fun error member => ?_, fun error member => ?_⟩
      · obtain ⟨next, inside, blames⟩ := aboutBehind error member
        exact ⟨next, List.mem_cons_of_mem _ inside, blames⟩
      · exact ⟨token, List.mem_cons_self, about error member⟩
    · refine renewed.imp_of_mem fun {later earlier} atLater atEarlier once => .inr ⟨?_, ?_⟩
      · rw [(about later atLater).1, (about earlier atEarlier).1]
      · rwa [(about later atLater).2.found_eq]
    · intro later atLater earlier atEarlier
      obtain ⟨next, inside, blames⟩ := aboutBehind later atLater
      rw [SyntaxError.Precedes, blames.1, (about earlier atEarlier).1]
      exact .inl (first next inside)

theorem Token.numbered_ordered (tokens : List Token) :
    (numbered tokens).Pairwise fun earlier later => earlier.position.line < later.position.line := by
  refine List.pairwise_iff_getElem.mpr fun i j iBound jBound lt => ?_
  simpa [numbered] using lt

/-- Marks are about the numbered tokens, in their order. -/
theorem marks_ordered (tokens : List Token) :
    (∀ mark ∈ marks tokens, ∃ token ∈ Token.numbered tokens, mark.Blames token) ∧
      (marks tokens).Pairwise SyntaxError.Precedes := by
  obtain ⟨new, errors, about, sorted⟩ := exists_new_foldl (Token.numbered_ordered tokens) start
  have same : marks tokens = new.reverse := by
    rw [marks, errors]
    exact congrArg List.reverse (List.append_nil _)
  rw [same]
  exact ⟨fun mark member => about mark (List.mem_reverse.mp member), List.pairwise_reverse.mpr sorted⟩

/-- A mark tells the index of the token that its error is about. -/
theorem blamesAt_of_mem_marks {tokens : List Token} {mark : SyntaxError} (member : mark ∈ marks tokens) :
    (mark.moved (Token.placeIn tokens)).BlamesAt tokens mark.position.line := by
  obtain ⟨token, found, blames⟩ := (marks_ordered tokens).1 mark member
  obtain ⟨index, known⟩ := List.mem_iff_getElem?.mp found
  have place : token.position = ⟨index, 0⟩ := by
    obtain ⟨word, _, rfl⟩ := Option.map_eq_some_iff.mp (List.getElem?_mapIdx ▸ known)
    rfl
  refine ⟨token.moved (Token.placeIn tokens), ?_, blames.moved _⟩
  rw [blames.1, place]
  have moved := congrArg (fun list => list[index]?) (Token.moved_numbered tokens)
  rw [← moved, List.getElem?_map, known]
  rfl

/-- Each error is about the token whose index its mark tells. -/
theorem forall₂_blamesAt (tokens : List Token) :
    List.Forall₂ (SyntaxError.BlamesAt tokens) (tokens.foldl feed start).errors.reverse
      ((marks tokens).map fun mark => mark.position.line) := by
  rw [errors_eq_marks, List.forall₂_map_left_iff, List.forall₂_map_right_iff, List.forall₂_same]
  exact fun mark member => blamesAt_of_mem_marks member

end ScopeScript
