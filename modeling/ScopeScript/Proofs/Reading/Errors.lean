import ScopeScript.Proofs.Reading.Actions

namespace ScopeScript.Reader

@[simp] theorem blame_errors (reader : Reader) (fault : Fault) (token : Token) :
    (reader.blame fault token).errors = ⟨fault, token.position⟩ :: reader.errors := rfl

@[simp] theorem close_errors (reader : Reader) (block : OpenBlock) (outer : List OpenBlock) :
    (reader.close block outer).errors = reader.errors := by
  obtain ⟨owner, around⟩ := block
  cases owner with
  | consequence condition site => rfl
  | alternative condition consequence site => cases site <;> rfl
  | body parameters site => cases site <;> rfl

variable {reader : Reader} {token : Token}

/-- What a token adds to the errors is about that token, and no error is taken back. -/
theorem Reads.exists_new {after : Reader} (reads : Reads token reader after) :
    ∃ new, after.errors = new ++ reader.errors ∧ ∀ error ∈ new, error.Blames token := by
  induction reads with
  | refl => exact ⟨[], rfl, List.forall_mem_nil _⟩
  | @tail before after _ acts ih =>
    obtain ⟨new, added, blame⟩ := ih
    cases acts with
    | await _ => exact ⟨new, added, blame⟩
    | keep _ => exact ⟨new, added, blame⟩
    | enter _ _ => exact ⟨new, added, blame⟩
    | close _ _ => exact ⟨new, by rw [close_errors, added], blame⟩
    | blame concerns =>
      refine ⟨⟨_, token.position⟩ :: new, by rw [blame_errors, added]; rfl, ?_⟩
      exact List.forall_mem_cons.mpr ⟨⟨rfl, concerns⟩, blame⟩
    | finish is =>
      refine ⟨List.replicate before.opened.length
        ⟨.unexpected (.punctuation .rightBrace) token.kind, token.position⟩ ++ new, ?_, ?_⟩
      · rw [List.append_assoc, ← added]
        rfl
      · refine List.forall_mem_append.mpr ⟨fun error missing => ?_, blame⟩
        rw [List.eq_of_mem_replicate missing]
        exact ⟨rfl, .unexpected (by rw [is]; simp)⟩

/-- Where a statement or an operand may begin, a token that is not the end of the text has one
error at most, and is not refused. -/
theorem Begins.exists_new {after : Reader} (begins : Begins token reader after)
    (more : token.kind ≠ .endOfInput) :
    ∃ new, after.errors = new ++ reader.errors ∧ (new.Pairwise fun _ _ => False) ∧
      ∀ error ∈ new, error.Blames token ∧ ¬ error.fault.Refuses := by
  cases begins with
  | await _ => exact ⟨[], rfl, .nil, List.forall_mem_nil _⟩
  | close _ _ => exact ⟨[], close_errors .., .nil, List.forall_mem_nil _⟩
  | drop concerns drops =>
    exact ⟨[_], rfl, List.pairwise_singleton _ _, List.forall_mem_singleton.mpr ⟨⟨rfl, concerns⟩, drops⟩⟩
  | finish is => exact absurd is more
  | lack is => exact absurd is more

/-- What a token adds to the errors. Of two errors about one token the earlier refuses it and
the later does not, unless it is the end of the text. -/
theorem Takes.exists_new {after : Reader} (takes : Takes token reader after) :
    ∃ new, after.errors = new ++ reader.errors ∧ (∀ error ∈ new, error.Blames token) ∧
      new.Pairwise fun later earlier =>
        token.kind = .endOfInput ∨ earlier.fault.Refuses ∧ ¬ later.fault.Refuses := by
  by_cases atEnd : token.kind = .endOfInput
  · obtain ⟨new, added, blame⟩ := takes.reads.exists_new
    exact ⟨new, added, blame, List.pairwise_of_forall fun _ _ => .inl atEnd⟩
  cases takes with
  | begins begun =>
    obtain ⟨new, added, single, about⟩ := begun.exists_new atEnd
    exact ⟨new, added, fun error member => (about error member).1, single.imp False.elim⟩
  | keep stmt begun =>
    obtain ⟨new, added, single, about⟩ := begun.exists_new atEnd
    exact ⟨new, added, fun error member => (about error member).1, single.imp False.elim⟩
  | enter owner _ =>
    exact ⟨[], rfl, List.forall_mem_nil _, .nil⟩
  | @refuse expected _ _ other begun =>
    obtain ⟨new, added, single, about⟩ := begun.exists_new atEnd
    refine ⟨new ++ [⟨.unexpected expected token.kind, token.position⟩], ?_, ?_, ?_⟩
    · rw [added, List.append_assoc]
      rfl
    · refine List.forall_mem_append.mpr ⟨fun error member => (about error member).1, ?_⟩
      exact List.forall_mem_singleton.mpr ⟨rfl, .unexpected other⟩
    · refine List.pairwise_append.mpr ⟨single.imp False.elim, List.pairwise_singleton _ _, ?_⟩
      intro later member earlier refusal
      rw [List.mem_singleton.mp refusal]
      exact .inr ⟨trivial, (about later member).2⟩

/-- A new error is about the token that is read. -/
theorem Reads.blames {after : Reader} (reads : Reads token reader after) :
    ∀ error ∈ after.errors, error ∈ reader.errors ∨ error.Blames token := by
  obtain ⟨new, added, blame⟩ := reads.exists_new
  intro error member
  rw [added] at member
  exact (List.mem_append.mp member).symm.imp_right (blame error)

/-- No action takes an error back. -/
theorem Reads.suffix {after : Reader} (reads : Reads token reader after) :
    reader.errors <:+ after.errors := by
  obtain ⟨new, added, _⟩ := reads.exists_new
  exact ⟨new, added.symm⟩

theorem suffix_finish (reader : Reader) (token : Token) :
    reader.errors <:+ (reader.finish token).errors :=
  List.suffix_append _ _

theorem suffix_feedStatement (reader : Reader) (token : Token) :
    reader.errors <:+ (reader.feedStatement token).errors :=
  (begins_feedStatement reader token).reads.suffix

/-- A token that is refused leaves an error behind. -/
theorem refuse_errors_ne_nil (reader : Reader) (expected : Kind) (token : Token) :
    (reader.refuse expected token).errors ≠ [] := by
  intro clean
  have kept := suffix_feedStatement (reader.blame (.unexpected expected token.kind) token) token
  change _ <:+ (reader.refuse expected token).errors at kept
  rw [clean, List.suffix_nil] at kept
  exact List.cons_ne_nil _ _ kept

/-- Errors stay recorded. -/
theorem suffix_feed (reader : Reader) (token : Token) :
    reader.errors <:+ (reader.feed token).errors :=
  (reads_feed reader token).suffix

theorem suffix_foldl (reader : Reader) (tokens : List Token) :
    reader.errors <:+ (tokens.foldl feed reader).errors := by
  induction tokens generalizing reader with
  | nil => exact List.suffix_refl _
  | cons token tokens ih => exact (suffix_feed reader token).trans (ih (reader.feed token))

end ScopeScript.Reader
