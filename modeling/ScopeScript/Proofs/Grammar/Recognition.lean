import ScopeScript.Proofs.Grammar.Completeness
import ScopeScript.Proofs.Grammar.Soundness
import ScopeScript.Proofs.Token.Scan

namespace ScopeScript

open Reader

theorem ReaderReach.start : ReaderReach [] Reader.start :=
  ⟨false, [], [], rfl, .outermost .start, .statement, by simp [Plain]⟩

theorem ReaderReach.foldl {tokens : List Token} {reader : Reader}
    (reach : ReaderReach tokens reader) {more : List Token}
    (inside : ∀ token ∈ more, token.kind ≠ .endOfInput)
    (clean : (more.foldl feed reader).errors = []) :
    ReaderReach (tokens ++ more) (more.foldl feed reader) := by
  induction more generalizing tokens reader with
  | nil => rwa [List.append_nil]
  | cons token more ih =>
    have kept := suffix_foldl (reader.feed token) more
    rw [List.foldl_cons] at clean
    rw [clean, List.suffix_nil] at kept
    have rest : ∀ later ∈ more, later.kind ≠ .endOfInput := fun later member =>
      inside later (List.mem_cons_of_mem token member)
    cases Fed.feed reach kept with
    | inside _ reached =>
      have whole := ih reached rest clean
      rwa [List.append_assoc, List.singleton_append] at whole
    | ended atEnd _ => exact absurd atEnd (inside token (List.mem_cons_self ..))

/-- A reader that finds no error in a whole text has a derivation of it. -/
theorem derives_of_foldl {body : List Token} {last : Token}
    (inside : ∀ token ∈ body, token.kind ≠ .endOfInput) (atEnd : last.kind = .endOfInput)
    (clean : ((body ++ [last]).foldl feed start).errors = []) :
    Block.Derives body ((body ++ [last]).foldl feed start).kept.reverse := by
  rw [List.foldl_append, List.foldl_cons, List.foldl_nil] at clean ⊢
  have kept := suffix_feed (body.foldl feed start) last
  rw [clean, List.suffix_nil] at kept
  cases Fed.feed (ReaderReach.start.foldl inside kept) clean with
  | inside more _ => exact absurd atEnd more
  | ended _ derived => exact derived

/-- A derivation of a whole text is read without errors. -/
theorem foldl_of_derives {body : List Token} {last : Token} {program : Block}
    (derived : Block.Derives body program) (atEnd : last.kind = .endOfInput) :
    (body ++ [last]).foldl feed start = start.keepAll program := by
  have read := derived.read start rfl last (by simp [atEnd]) (by rw [atEnd]; rfl)
  rw [List.foldl_append, List.foldl_cons, List.foldl_nil, read, feed_of_ready rfl]
  simp only [feedStatement, atEnd]
  rfl

theorem parse_eq_ok_iff_read (text : String) (program : Block) :
    parse text = .ok program ↔
      ((scan text).foldl feed start).errors = [] ∧
        ((scan text).foldl feed start).kept.reverse = program := by
  unfold parse read Reading.ofTokens
  dsimp only
  split
  · rename_i empty
    have clean := List.reverse_eq_nil_iff.mp (List.isEmpty_iff.mp empty)
    simp [clean]
  · rename_i some?
    have found : ((scan text).foldl feed start).errors ≠ [] := by
      intro clean
      rw [clean] at some?
      exact some? rfl
    simp [found]

theorem parse_eq_error_iff (text : String) (errors : List SyntaxError) :
    parse text = .error errors ↔
      errors ≠ [] ∧ ((scan text).foldl feed start).errors.reverse = errors := by
  unfold parse read Reading.ofTokens
  dsimp only
  split
  · rename_i empty
    have clean := List.isEmpty_iff.mp empty
    simp [clean]
  · rename_i some?
    have found : ((scan text).foldl feed start).errors.reverse ≠ [] := by
      simpa [List.isEmpty_iff] using some?
    constructor
    · intro same
      cases same
      exact ⟨found, rfl⟩
    · rintro ⟨_, rfl⟩
      rfl

/-- Exactly the texts whose tokens are a program by the grammar are read as one, and
each is read as the program that its tokens are. -/
theorem parse_eq_ok_iff (text : String) (program : Block) :
    parse text = .ok program ↔ Block.DerivesProgram (scan text) program := by
  rw [parse_eq_ok_iff_read]
  constructor
  · rintro ⟨clean, rfl⟩
    obtain ⟨body, last, tokens, atEnd, inside⟩ := scan_ends text
    rw [tokens] at clean ⊢
    exact ⟨body, last, rfl, atEnd, derives_of_foldl inside atEnd clean⟩
  · rintro ⟨body, last, tokens, atEnd, derived⟩
    rw [tokens, foldl_of_derives derived atEnd]
    exact ⟨rfl, by simp [keepAll, start]⟩

end ScopeScript
