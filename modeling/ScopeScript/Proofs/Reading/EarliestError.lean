import ScopeScript.Proofs.Grammar.Recognition
import ScopeScript.Proofs.Reading.Completion
import ScopeScript.Proofs.Reading.Numbering

namespace ScopeScript

open Reader

/-- The first of the errors that were recorded stays the first. -/
theorem Reader.getLast?_foldl {reader : Reader} {first : SyntaxError}
    (found : reader.errors.getLast? = some first) (tokens : List Token) :
    (tokens.foldl feed reader).errors.getLast? = some first := by
  obtain ⟨later, kept⟩ := suffix_foldl reader tokens
  rw [← kept, List.getLast?_append, found]
  rfl

/-- Up to the first error nothing is wrong, and that error is about the token it is found
at. -/
theorem Reader.exists_first_error {tokens : List Token} {reader : Reader}
    (clean : reader.errors = []) (fails : (tokens.foldl feed reader).errors ≠ []) :
    ∃ before token after first, tokens = before ++ token :: after ∧
      (before.foldl feed reader).errors = [] ∧
      ((before.foldl feed reader).feed token).errors.getLast? = some first ∧
      first.Blames token := by
  induction tokens generalizing reader with
  | nil => exact absurd clean fails
  | cons token tokens ih =>
    by_cases still : (reader.feed token).errors = []
    · obtain ⟨before, next, after, first, rfl, unblamed, found, blames⟩ := ih still fails
      exact ⟨token :: before, next, after, first, rfl, unblamed, found, blames⟩
    · obtain ⟨first, found⟩ := Option.ne_none_iff_exists'.mp (mt List.getLast?_eq_none_iff.mp still)
      have known := (reads_feed reader token).blames first (List.mem_of_getLast? found)
      rw [clean] at known
      exact ⟨[], token, tokens, first, rfl, clean, found, known.resolve_left List.not_mem_nil⟩

/-- Whatever begins with the words up to the blamed one has the same fault first. -/
theorem error_of_same_words {before : List Token} {token : Token} {first : SyntaxError}
    (found : ((before.foldl feed start).feed token).errors.getLast? = some first) {other : String}
    (same : ((scan other).take (before.length + 1)).map Token.word =
      (before ++ [token]).map Token.word) :
    ∃ again later, parse other = .error (again :: later) ∧ again.fault = first.fault := by
  have alike := foldl_alike same start
  rw [List.foldl_append, List.foldl_cons, List.foldl_nil] at alike
  have faults := congrArg List.getLast? alike.faults
  rw [List.getLast?_map, List.getLast?_map, found] at faults
  obtain ⟨again, foundAgain, fault⟩ := Option.map_eq_some_iff.mp faults
  have whole := getLast?_foldl foundAgain ((scan other).drop (before.length + 1))
  rw [← List.foldl_append, List.take_append_drop, ← List.head?_reverse] at whole
  obtain ⟨later, errors⟩ := List.head?_eq_some_iff.mp whole
  exact ⟨again, later, (parse_eq_error_iff other _).mpr ⟨List.cons_ne_nil _ _, errors⟩, fault⟩

/-- Words that were read without an error begin a text that is a program. -/
theorem parse_of_clean_words {before : List Token}
    (fits : ∀ token ∈ before, token.kind.Fits token.lexeme.toList)
    (clean : (before.foldl feed start).errors = []) :
    ∃ other program, before.map Token.word <+: (scan other).map Token.word ∧
      parse other = .ok program := by
  let words := before.map Token.word ++ (before.foldl feed start).completion
  have fitting : Fitting words := by
    refine fitting_append.mpr ⟨?_, Reader.fitting_completion _⟩
    intro word member
    obtain ⟨token, inside, rfl⟩ := List.mem_map.mp member
    exact fits token inside
  obtain ⟨tokens, last, scanned, spelled, atEnd⟩ := scan_words fitting
  obtain ⟨again, completing, rfl, same, completed⟩ := List.map_eq_append_iff.mp spelled
  -- The words up to here are read alike in both texts, so the same words complete them.
  have alike := foldl_alike same start
  have completion : (again.foldl feed start).completion = (before.foldl feed start).completion := by
    simp only [Reader.completion, alike.expects, alike.opened]
  have none : (again.foldl feed start).errors = [] := by
    have faults := alike.faults
    rwa [clean, List.map_nil, List.map_eq_nil_iff] at faults
  obtain ⟨outside, still, ready⟩ := Reader.completes (again.foldl feed start)
    (completed.trans completion.symm)
  have ended : ((scan (" ".intercalate (words.map Prod.snd))).foldl feed start).errors = [] := by
    rw [scanned, List.foldl_append, List.foldl_append, List.foldl_cons, List.foldl_nil,
      feed_of_ready ready]
    simp only [feedStatement, atEnd, finish, outside, List.length_nil, List.replicate_zero,
      List.nil_append, still, none]
  refine ⟨_, _, ?_, (parse_eq_ok_iff_read _ _).mpr ⟨ended, rfl⟩⟩
  rw [scanned, List.map_append, List.map_append, same, List.append_assoc]
  exact List.prefix_append _ _

/-- The first error is found at the first token that no program has behind the tokens
before it. It is about one token of the text. Every text with the same words up to this one
has the same fault first, and with the words before it some text is a program. -/
theorem earliest_error (text : String) (errors : List SyntaxError)
    (fails : parse text = .error errors) :
    ∃ first later j, errors = first :: later ∧
      (∃ token, (scan text)[j]? = some token ∧ first.Blames token) ∧
      (∀ k token, (scan text)[k]? = some token → first.Blames token → k = j) ∧
      (∀ other, ((scan other).take (j + 1)).map Token.word =
          ((scan text).take (j + 1)).map Token.word →
        ∃ again more, parse other = .error (again :: more) ∧ again.fault = first.fault) ∧
      ∃ other program, ((scan text).take j).map Token.word <+: (scan other).map Token.word ∧
        parse other = .ok program := by
  obtain ⟨some?, listed⟩ := (parse_eq_error_iff text errors).mp fails
  have found : ((scan text).foldl feed start).errors ≠ [] := by
    intro clean
    rw [clean] at listed
    exact some? listed.symm
  obtain ⟨before, token, after, first, scanned, clean, atToken, blames⟩ :=
    exists_first_error rfl found
  have ordered := scan_ordered text
  have whole := getLast?_foldl atToken after
  rw [← List.foldl_cons, ← List.foldl_append, ← scanned, ← List.head?_reverse, listed] at whole
  obtain ⟨later, rfl⟩ := List.head?_eq_some_iff.mp whole
  have here : (scan text)[before.length]? = some token := by rw [scanned]; simp
  have upTo : (scan text).take before.length = before := by rw [scanned]; simp
  have through : (scan text).take (before.length + 1) = before ++ [token] := by
    rw [scanned, List.take_length_add_append]
    rfl
  have inside : ∀ token ∈ before, token.kind.Fits token.lexeme.toList := by
    rw [scanned] at ordered
    intro one member
    refine scan_fits text one (by rw [scanned]; exact List.mem_append_left _ member) ?_
    exact ((List.pairwise_append.mp ordered).2.2 one member token List.mem_cons_self).more
  refine ⟨first, later, before.length, rfl, ⟨token, here, blames⟩, ?_, ?_, ?_⟩
  · intro k other there blamesOther
    exact blamed_index_unique ordered there here blamesOther blames
  · intro other same
    rw [through] at same
    exact error_of_same_words atToken same
  · rw [upTo]
    exact parse_of_clean_words inside clean

/-- A `var` without a name is found wrong at the sign behind it. -/
theorem earliest_error_of_nameless :
    let errors : List SyntaxError := [⟨.unexpected .identifier (.punctuation .equal), ⟨1, 5⟩⟩,
      ⟨.noOperand (.punctuation .equal), ⟨1, 5⟩⟩]
    parse "var = 1;" = .error errors ∧
      ∃ first later j, errors = first :: later ∧
        (∃ token, (scan "var = 1;")[j]? = some token ∧ first.Blames token) ∧
        ∃ other program, ((scan "var = 1;").take j).map Token.word <+: (scan other).map Token.word ∧
          parse other = .ok program := by
  intro errors
  have fails : parse "var = 1;" = .error errors := by
    rw [parse_eq_error_iff]
    decide +kernel
  obtain ⟨first, later, j, listed, blamed, _, _, completes⟩ := earliest_error "var = 1;" errors fails
  exact ⟨fails, first, later, j, listed, blamed, completes⟩

end ScopeScript
