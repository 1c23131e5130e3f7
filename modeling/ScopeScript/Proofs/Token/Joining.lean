import ScopeScript.Proofs.Token.Exactness

namespace ScopeScript

/-- What a token is without its place. -/
def Token.word (token : Token) : Kind × String := (token.kind, token.lexeme)

/-- The same token in another place. -/
def Token.moved (move : Position → Position) (token : Token) : Token :=
  { token with position := move token.position }

@[simp] theorem Token.moved_kind (move : Position → Position) (token : Token) :
    (token.moved move).kind = token.kind := rfl

/-- The same column some lines further down. -/
def Position.down (lines : Nat) (position : Position) : Position :=
  ⟨position.line + lines, position.column⟩

theorem Position.after_down (lines : Nat) (position : Position) (c : Char) :
    (position.down lines).after c = (position.after c).down lines := by
  unfold Position.after Position.down
  split
  · rw [Nat.add_right_comm]
  · rfl

theorem Position.afterAll_down (lines : Nat) (position : Position) (text : List Char) :
    (position.down lines).afterAll text = (position.afterAll text).down lines := by
  induction text generalizing position with
  | nil => rfl
  | cons c text ih => rw [Position.afterAll_cons, Position.after_down, ih, Position.afterAll_cons]

namespace Cursor

/-- Blanks are passed over. -/
theorem collect_blank_append {gap : List Char} (blank : ∀ c ∈ gap, isBlank c = true)
    (rest : List Char) (position : Position) :
    (Cursor.mk (gap ++ rest) position).collect [] =
      (Cursor.mk rest (position.afterAll gap)).collect [] := by
  have same : (Cursor.mk (gap ++ rest) position).next =
      (Cursor.mk rest (position.afterAll gap)).next := by
    simp only [next, skip, List.dropWhile_append_of_pos blank, List.takeWhile_append_of_pos blank,
      Position.afterAll_append]
  rw [collect, same, ← collect]

/-- Text further down has the same tokens further down. -/
theorem collect_down {text : List Char} (pieces : Pieces text) (lines : Nat) (position : Position) :
    (Cursor.mk text (position.down lines)).collect [] =
      ((Cursor.mk text position).collect []).map (Token.moved (Position.down lines)) := by
  induction pieces generalizing position with
  | blank blank =>
    rw [collect_of_blank blank, collect_of_blank blank, Position.afterAll_down]
    rfl
  | token blank fits ends _ ih =>
    rw [collect_of_fits blank fits ends, collect_of_fits blank fits ends, Position.afterAll_down,
      Position.afterAll_down, Position.after_down, ih]
    rfl

/-- Text behind which no token reaches over is scanned on its own, and what stands before it
has the tokens that it has alone. -/
theorem collect_append {text : List Char} (pieces : Pieces text) (position : Position) :
    ∃ tokens, (Cursor.mk text position).collect [] =
        tokens ++ [⟨.endOfInput, "", position.afterAll text⟩] ∧
      ∀ behind : List Char, Apart text behind →
        (Cursor.mk (text ++ behind) position).collect [] =
          tokens ++ (Cursor.mk behind (position.afterAll text)).collect [] := by
  induction pieces generalizing position with
  | blank blank =>
    exact ⟨[], collect_of_blank blank position, fun behind _ => collect_blank_append blank behind _⟩
  | @token gap more rest first kind blank fits ends _ ih =>
    obtain ⟨tokens, alone, joined⟩ := ih (position.afterAll (gap ++ first :: more))
    let token : Token := ⟨kind, String.ofList (first :: more), (position.afterAll gap).after first⟩
    refine ⟨token :: tokens, ?_, fun behind apart => ?_⟩
    · rw [collect_of_fits blank fits ends, alone, Position.afterAll_append _ _ rest]
      rfl
    · have endsJoined : ∀ c ∈ (rest ++ behind).head?, kind.takes c = false := by
        cases rest with
        | nil => exact Apart.ends_lexeme fits (List.append_nil _ ▸ apart)
        | cons c rest => exact ends
      rw [List.append_assoc _ rest behind, collect_of_fits blank fits endsJoined,
        joined behind apart.of_append, Position.afterAll_append _ _ rest]
      rfl

end Cursor

theorem Kind.takes_blank (kind : Kind) {c : Char} (blank : isBlank c = true) :
    kind.takes c = false := by
  refine Bool.eq_false_iff.mpr fun taken => ?_
  rw [Kind.isBlank_of_takes taken] at blank
  exact Bool.false_ne_true blank

theorem Kind.takes_sign (kind : Kind) (sign : Punctuation) :
    kind.takes sign.character = false := by
  refine Bool.eq_false_iff.mpr fun taken => ?_
  have other := (Kind.Fits.punctuation sign).takes_eq (List.mem_singleton_self _) taken
  rw [other] at taken
  exact Bool.false_ne_true taken

/-- Behind a semicolon and a line feed a text begins as every text does, further down. -/
theorem Position.start_afterAll_semicolon (text : List Char) :
    ((Position.start.afterAll text).after ';').after '\n' =
      Position.start.down (text.count '\n' + 1) := by
  have onLine (position : Position) : position.after ';' = ⟨position.line, position.column + 1⟩ :=
    rfl
  have feeds (position : Position) : position.after '\n' = ⟨position.line + 1, 0⟩ := rfl
  rw [Position.start_afterAll, onLine, feeds]
  simp only [Position.down, Position.start, Position.mk.injEq, and_true]
  omega

/-- A text, a semicolon and a text on the lines behind it have the tokens of the one, the
semicolon and the tokens of the other. -/
theorem scan_semicolon (text : String) :
    ∃ tokens mark last, scan text = tokens ++ [last] ∧ last.kind = .endOfInput ∧
      mark.kind = .punctuation .semicolon ∧
      ∀ more, scan (text ++ ";\n" ++ more) = tokens ++ mark ::
        (scan more).map (Token.moved (Position.down (text.toList.count '\n' + 1))) := by
  obtain ⟨tokens, alone, joined⟩ := Cursor.collect_append (Pieces.of text.toList) .start
  refine ⟨tokens, ⟨.punctuation .semicolon, ";", (Position.start.afterAll text.toList).after ';'⟩, _,
    alone, rfl, rfl, fun more => ?_⟩
  have apart : Apart text.toList (';' :: '\n' :: more.toList) := by
    rintro c last d next kind taken
    cases Option.mem_some.mp next
    exact kind.takes_sign .semicolon
  have mark := Cursor.collect_of_fits (List.forall_mem_nil _)
    (Kind.Fits.punctuation .semicolon) (fun c (_ : c ∈ ('\n' :: more.toList).head?) => rfl)
    (Position.start.afterAll text.toList)
  have feed : ∀ c ∈ ['\n'], isBlank c = true := List.forall_mem_singleton.mpr rfl
  have behind := Cursor.collect_blank_append feed more.toList
    ((Position.start.afterAll text.toList).after ';')
  rw [Position.afterAll_cons, Position.afterAll_nil, Position.start_afterAll_semicolon,
    Cursor.collect_down (Pieces.of more.toList)] at behind
  have spelled : (text ++ ";\n" ++ more).toList = text.toList ++ (';' :: '\n' :: more.toList) := by
    rw [String.toList_append, String.toList_append, List.append_assoc]
    rfl
  have whole := joined _ apart
  rw [← spelled] at whole
  refine whole.trans (congrArg _ ?_)
  refine mark.trans (congrArg _ ?_)
  exact behind

/-- Each word has a lexeme of its kind. -/
def Fitting (words : List (Kind × String)) : Prop :=
  ∀ word ∈ words, word.1.Fits word.2.toList

@[simp] theorem fitting_nil : Fitting [] := List.forall_mem_nil _

@[simp] theorem fitting_cons {word : Kind × String} {words : List (Kind × String)} :
    Fitting (word :: words) ↔ word.1.Fits word.2.toList ∧ Fitting words :=
  List.forall_mem_cons

@[simp] theorem fitting_append {words more : List (Kind × String)} :
    Fitting (words ++ more) ↔ Fitting words ∧ Fitting more :=
  List.forall_mem_append

/-- A sign as a word. -/
def Punctuation.word (sign : Punctuation) : Kind × String :=
  (.punctuation sign, String.ofList [sign.character])

@[simp] theorem Punctuation.fits_word (sign : Punctuation) :
    sign.word.1.Fits sign.word.2.toList := by
  rw [word, String.toList_ofList]
  exact .punctuation sign

/-- A word that nothing lengthens is scanned as one. -/
theorem Cursor.collect_word {word : Kind × String} {rest : List Char}
    (fits : word.1.Fits word.2.toList) (ends : ∀ c ∈ rest.head?, word.1.takes c = false)
    (position : Position) :
    ((Cursor.mk (word.2.toList ++ rest) position).collect []).map Token.word =
      word :: ((Cursor.mk rest (position.afterAll word.2.toList)).collect []).map Token.word := by
  obtain ⟨first, more, spelled⟩ := List.exists_cons_of_ne_nil fits.ne_nil
  have known : String.ofList (first :: more) = word.2 := by rw [← spelled, String.ofList_toList]
  rw [spelled] at fits ⊢
  have collected := collect_of_fits (List.forall_mem_nil _) fits ends position
  rw [List.nil_append] at collected
  rw [collected, List.map_cons, Token.word, known]

/-- Words with blanks between them are scanned as these words. -/
theorem Cursor.collect_intercalate {words : List (Kind × String)} (fits : Fitting words)
    (position : Position) :
    ((Cursor.mk (" ".intercalate (words.map Prod.snd)).toList position).collect []).map
      Token.word = words ++ [(.endOfInput, "")] := by
  have nothing (position : Position) :
      ((Cursor.mk [] position).collect []).map Token.word = [(.endOfInput, "")] := by
    rw [collect_of_blank (List.forall_mem_nil _)]
    rfl
  induction words generalizing position with
  | nil => exact nothing position
  | cons word words ih =>
    obtain ⟨here, later⟩ := fitting_cons.mp fits
    cases words with
    | nil =>
      have alone := @collect_word word [] here (by simp) position
      rwa [List.append_nil, nothing] at alone
    | cons next words =>
      have blank : ∀ c ∈ " ".toList, isBlank c = true := List.forall_mem_singleton.mpr rfl
      rw [List.map_cons, List.map_cons, String.intercalate_cons_cons, ← List.map_cons,
        String.toList_append, String.toList_append, List.append_assoc,
        collect_word here]
      · rw [collect_blank_append blank, ih later]
        rfl
      · rintro c begins
        cases Option.mem_some.mp begins
        exact word.1.takes_blank rfl

/-- A text of given words has tokens with these words, and its end. -/
theorem scan_words {words : List (Kind × String)} (fits : Fitting words) :
    ∃ tokens last, scan (" ".intercalate (words.map Prod.snd)) = tokens ++ [last] ∧
      tokens.map Token.word = words ∧ last.kind = .endOfInput := by
  have collected := Cursor.collect_intercalate fits .start
  obtain ⟨tokens, ends, scanned, spelled, ended⟩ := List.map_eq_append_iff.mp collected
  obtain ⟨last, none, rfl, is, nothing⟩ := List.map_eq_cons_iff.mp ended
  cases List.map_eq_nil_iff.mp nothing
  exact ⟨tokens, last, scanned, spelled, congrArg Prod.fst is⟩

end ScopeScript
