import ScopeScript.Proofs.Reading.Numbering

namespace ScopeScript

open Reader

/-- How many errors the unfinished statement has at most if the text ends in it. -/
def Expectation.cost : Expectation → Nat
  | .statement => 0
  | _ => 1

theorem Expectation.cost_le_one (expects : Expectation) : expects.cost ≤ 1 := by
  cases expects with
  | statement => exact Nat.zero_le 1
  | _ => exact Nat.le_refl 1

theorem Expectation.cost_of_ne {expects : Expectation} (pending : expects ≠ .statement) :
    expects.cost = 1 := by
  cases expects with
  | statement => exact absurd rfl pending
  | _ => rfl

namespace Reader

/-- The errors found, and as many as there may be if the text ends here: one for each open block
and at most one for the statement that is not finished. -/
def cost (reader : Reader) : Nat :=
  reader.errors.length + reader.opened.length + reader.expects.cost

variable {reader after : Reader} {token : Token}

theorem close_opened (reader : Reader) (block : OpenBlock) (outer : List OpenBlock) :
    (reader.close block outer).opened = outer := by
  obtain ⟨owner, around⟩ := block
  cases owner with
  | consequence condition site => rfl
  | alternative condition consequence site => cases site <;> rfl
  | body parameters site => cases site <;> rfl

theorem Begins.cost_le (begins : Begins token reader after) :
    after.cost ≤ reader.errors.length + reader.opened.length + 1 := by
  cases begins with
  | await expects => exact Nat.add_le_add_left expects.cost_le_one _
  | @close block outer _ known =>
    have last := (reader.close block outer).expects.cost_le_one
    rw [cost, close_errors, close_opened, known, List.length_cons]
    omega
  | drop _ _ =>
    simp only [cost, blame, Expectation.cost, List.length_cons]
    omega
  | finish _ =>
    simp only [cost, Reader.finish, Expectation.cost, List.length_append, List.length_replicate,
      List.length_nil]
    omega
  | lack _ =>
    simp only [cost, Reader.finish, blame, Expectation.cost, List.length_append, List.length_replicate,
      List.length_nil, List.length_cons]
    omega

/-- A token is refused only if a statement is not finished, and that statement is given up
then. So it costs one error to refuse it and at most one more to read it again. -/
theorem Takes.cost_le (takes : Takes token reader after) : after.cost ≤ reader.cost + 1 := by
  cases takes with
  | begins begun => exact begun.cost_le.trans (Nat.add_le_add_right (Nat.le_add_right _ _) 1)
  | keep stmt begun => exact begun.cost_le.trans (Nat.add_le_add_right (Nat.le_add_right _ _) 1)
  | enter owner _ =>
    simp only [cost, Reader.enter, Expectation.cost, List.length_cons]
    omega
  | refuse pending _ begun =>
    have again := begun.cost_le
    have now : reader.cost = reader.errors.length + reader.opened.length + 1 :=
      congrArg _ (Expectation.cost_of_ne pending)
    simp only [blame, List.length_cons] at again
    omega

theorem cost_foldl_le (tokens : List Token) (reader : Reader) :
    (tokens.foldl feed reader).cost ≤ reader.cost + tokens.length := by
  induction tokens generalizing reader with
  | nil => exact Nat.le_refl _
  | cons token tokens ih =>
    have step := (takes_feed reader token).cost_le
    have run := ih (reader.feed token)
    rw [List.foldl_cons, List.length_cons]
    omega

end Reader

/-- There are no more errors than tokens. -/
theorem errors_length_le (tokens : List Token) :
    (tokens.foldl feed start).errors.length ≤ tokens.length := by
  have bound := cost_foldl_le tokens start
  have none : start.cost = 0 := rfl
  rw [none, cost] at bound
  omega

/-- What a report says: `blamed` has an index for each of its errors, that of the token the
error is about. -/
structure Reported (tokens : List Token) (errors : List SyntaxError) (blamed : List Nat) : Prop where
  blames : List.Forall₂ (SyntaxError.BlamesAt tokens) errors blamed
  ordered : blamed.Pairwise (· ≤ ·)
  places : errors.Pairwise fun earlier later => earlier.position.key ≤ later.position.key
  renewed : errors.Pairwise fun earlier later => ∀ token ∈ tokens, token.kind ≠ .endOfInput →
    earlier.Blames token → later.Blames token → earlier.fault.Refuses ∧ ¬ later.fault.Refuses
  twice : ∀ index token, tokens[index]? = some token → token.kind ≠ .endOfInput →
    blamed.count index ≤ 2
  few : errors.length ≤ tokens.length

theorem SyntaxError.BlamesAt.key_le {tokens : List Token} {error next : SyntaxError} {i j : Nat}
    (ordered : tokens.Pairwise Token.Before) (le : i ≤ j) (one : error.BlamesAt tokens i)
    (other : next.BlamesAt tokens j) : error.position.key ≤ next.position.key := by
  obtain ⟨token, first, blames⟩ := one
  obtain ⟨later, second, blamesLater⟩ := other
  obtain ⟨iBound, rfl⟩ := List.getElem?_eq_some_iff.mp first
  obtain ⟨jBound, rfl⟩ := List.getElem?_eq_some_iff.mp second
  rw [blames.1, blamesLater.1]
  rcases Nat.lt_or_eq_of_le le with lt | rfl
  · exact (List.pairwise_iff_getElem.mp ordered i j iBound jBound lt).le
  · exact le_rfl

theorem SyntaxError.Precedes.le {earlier later : SyntaxError} (precedes : earlier.Precedes later) :
    earlier.position.line ≤ later.position.line :=
  precedes.elim Nat.le_of_lt fun same => Nat.le_of_eq same.1

/-- A token that is not the end of the text is refused first and then wrong again. -/
theorem SyntaxError.Precedes.renewed {earlier later : SyntaxError}
    (precedes : earlier.Precedes later) (same : earlier.position.line = later.position.line)
    (more : later.fault.found ≠ .endOfInput) :
    earlier.fault.Refuses ∧ ¬ later.fault.Refuses := by
  rcases precedes with lt | ⟨_, atEnd | renewed⟩
  · exact absurd same lt.ne
  · exact absurd atEnd more
  · exact renewed

/-- What was refused and is wrong again is not wrong a third time. -/
theorem length_le_two_of_renewed {errors : List SyntaxError}
    (renewed : errors.Pairwise fun earlier later => earlier.fault.Refuses ∧ ¬ later.fault.Refuses) :
    errors.length ≤ 2 := by
  match errors, renewed with
  | [], _ | [_], _ | [_, _], _ => simp
  | first :: second :: third :: _, renewed =>
    obtain ⟨behindFirst, behind⟩ := List.pairwise_cons.mp renewed
    have wrong := (behindFirst second List.mem_cons_self).2
    have refused := ((List.pairwise_cons.mp behind).1 third List.mem_cons_self).1
    exact absurd refused wrong

section Marks

variable {tokens : List Token} {index : Nat} {token : Token} {mark : SyntaxError}

/-- The token that a mark tells has the kind that its fault names. -/
theorem found_of_mem_marks (member : mark ∈ marks tokens)
    (there : tokens[mark.position.line]? = some token) : mark.fault.found = token.kind := by
  obtain ⟨other, found, blames⟩ := blamesAt_of_mem_marks member
  rw [there] at found
  cases found
  exact blames.2.found_eq

theorem count_marks_le_two (there : tokens[index]? = some token)
    (more : token.kind ≠ .endOfInput) :
    ((marks tokens).map fun mark => mark.position.line).count index ≤ 2 := by
  rw [List.count_eq_countP, List.countP_map, List.countP_eq_length_filter]
  refine length_le_two_of_renewed ?_
  refine ((marks_ordered tokens).2.filter _).imp_of_mem fun {earlier later} one other precedes => ?_
  have here : earlier.position.line = index := beq_iff_eq.mp (List.mem_filter.mp one).2
  obtain ⟨member, same⟩ := List.mem_filter.mp other
  have again : later.position.line = index := beq_iff_eq.mp same
  refine precedes.renewed (here.trans again.symm) ?_
  rwa [found_of_mem_marks member (again.symm ▸ there)]

end Marks

/-- The errors of a text are reported in the order of its tokens. Only one list of indices tells
what they are about. -/
theorem error_report (text : String) :
    ∃ blamed, Reported (scan text) (read text).errors blamed ∧
      ∀ other, List.Forall₂ (SyntaxError.BlamesAt (scan text)) (read text).errors other →
        other = blamed := by
  have ordered := scan_ordered text
  have errors : (read text).errors =
      (marks (scan text)).map (SyntaxError.moved (Token.placeIn (scan text))) :=
    errors_eq_marks (scan text)
  have blames := forall₂_blamesAt (scan text)
  have sorted := (marks_ordered (scan text)).2
  refine ⟨_, ⟨blames, ?_, ?_, ?_, fun _ _ => count_marks_le_two, ?_⟩, fun other also => ?_⟩
  · exact List.pairwise_map.mpr (sorted.imp SyntaxError.Precedes.le)
  · rw [errors, List.pairwise_map]
    refine sorted.imp_of_mem fun one other precedes => ?_
    exact (blamesAt_of_mem_marks one).key_le ordered precedes.le (blamesAt_of_mem_marks other)
  · rw [errors, List.pairwise_map]
    refine sorted.imp_of_mem fun {earlier later} one other precedes token member more here again => ?_
    obtain ⟨index, there⟩ := List.mem_iff_getElem?.mp member
    have same := (blamesAt_of_mem_marks one).unique ordered ⟨token, there, here⟩
    have sameAgain := (blamesAt_of_mem_marks other).unique ordered ⟨token, there, again⟩
    refine precedes.renewed (same.trans sameAgain.symm) ?_
    rwa [found_of_mem_marks other (sameAgain.symm ▸ there)]
  · have bound := errors_length_le (scan text)
    rwa [← List.length_reverse] at bound
  · exact List.right_unique_forall₂' (fun _ _ _ one both => one.unique ordered both) also blames

end ScopeScript
