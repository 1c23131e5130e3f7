import ScopeScript.Proofs.Grammar.Recognition
import ScopeScript.Proofs.Reading.Actions
import ScopeScript.Proofs.Reading.Breaks
import ScopeScript.Proofs.Reading.Context

namespace ScopeScript

open Reader

/-- Where no left brace is read, no block is opened. -/
theorem Reader.opened_foldl {tokens : List Token}
    (braceless : ∀ token ∈ tokens, ¬ token.IsSign .leftBrace) {reader : Reader}
    (outside : reader.opened = []) : (tokens.foldl feed reader).opened = [] := by
  induction tokens generalizing reader with
  | nil => exact outside
  | cons token tokens ih =>
    obtain ⟨here, later⟩ := List.forall_mem_cons.mp braceless
    exact ih later ((reads_feed reader token).opened_eq_nil here outside)

/-- A whole text closes or gives up every block. -/
theorem opened_scan (text : String) : ((scan text).foldl feed start).opened = [] := by
  obtain ⟨body, last, tokens, atEnd, _⟩ := scan_ends text
  rw [tokens, List.foldl_append, List.foldl_cons, List.foldl_nil]
  exact opened_of_endOfInput atEnd

/-- A reader at the beginning of a statement, outside of all blocks, stands before the
next text as if nothing but a context was before it. -/
theorem Reader.eq_around {reader : Reader} (outside : reader.opened = [])
    (ready : reader.expects = .statement) (move : Position → Position) :
    reader = (Context.mk move reader.kept reader.errors).around start := by
  obtain ⟨opened, kept, expects, errors⟩ := reader
  cases outside
  cases ready
  rfl

/-- What a reader between two texts makes of the second one. -/
theorem Reader.read_behind {reader : Reader} (outside : reader.opened = [])
    (ready : reader.expects = .statement) (move : Position → Position) (text : String) :
    let whole := ((scan text).map (Token.moved move)).foldl feed reader
    whole.kept.reverse = reader.kept.reverse ++ (read text).program ∧
      whole.errors.reverse = reader.errors.reverse ++ (read text).errors.map (.moved move) := by
  have known := Context.around_foldl ⟨move, reader.kept, reader.errors⟩ start (scan text)
  rw [← eq_around outside ready move] at known
  dsimp only
  rw [known]
  simp only [Context.around, opened_scan, List.isEmpty_nil, if_true, List.reverse_append,
    ← List.map_reverse]
  exact ⟨rfl, rfl⟩

theorem parse_eq_ok_iff_clean (text : String) (program : Block) :
    parse text = .ok program ↔ (read text).errors = [] ∧ (read text).program = program := by
  rw [parse_eq_ok_iff_read]
  simp only [read, Reading.ofTokens, List.reverse_eq_nil_iff]

theorem read_empty : read "" = ⟨[], []⟩ := by
  have scanned : scan "" = [⟨.endOfInput, "", .start⟩] :=
    Cursor.collect_of_blank (List.forall_mem_nil _) .start
  rw [read, scanned]
  rfl

/-- Nothing is open behind a text that is a program, and nothing behind one that has no
left brace. -/
theorem opened_before_end {text : String} {tokens : List Token} {last : Token}
    (whole : (∃ program, parse text = .ok program) ∨
      ∀ token ∈ scan text, ¬ token.IsSign .leftBrace)
    (scanned : scan text = tokens ++ [last]) (atEnd : last.kind = .endOfInput) :
    (tokens.foldl feed start).opened = [] := by
  rcases whole with ⟨program, parsed⟩ | braceless
  · have clean := ((parse_eq_ok_iff_read text program).mp parsed).1
    rw [scanned, List.foldl_append, List.foldl_cons, List.foldl_nil] at clean
    have semicolon : (⟨.punctuation .semicolon, "", .start⟩ : Token).IsSign .semicolon := rfl
    exact (feed_semicolon_of_clean semicolon atEnd clean).1
  · refine opened_foldl (fun token member => braceless token ?_) rfl
    rw [scanned]
    exact List.mem_append_left _ member

/-- What a text is read as up to the semicolon behind it, whatever comes after that. -/
theorem read_up_to_semicolon (text : String)
    (whole : (∃ program, parse text = .ok program) ∨
      ∀ token ∈ scan text, ¬ token.IsSign .leftBrace) :
    ∃ program errors,
      (∀ more, (read (text ++ ";\n" ++ more)).program = program ++ (read more).program ∧
        (read (text ++ ";\n" ++ more)).errors =
          errors ++ (read more).errors.map (.moved (.down (text.toList.count '\n' + 1)))) ∧
      ∀ parsed, parse text = .ok parsed → program = parsed ∧ errors = [] := by
  obtain ⟨tokens, mark, last, scanned, atEnd, is, joined⟩ := scan_semicolon text
  have outside := opened_before_end whole scanned atEnd
  obtain ⟨opened, ready⟩ := @feed_of_semicolon (tokens.foldl feed start) _ is
  rw [outside] at opened
  refine ⟨((tokens.foldl feed start).feed mark).kept.reverse,
    ((tokens.foldl feed start).feed mark).errors.reverse, fun more => ?_, fun parsed ok => ?_⟩
  · have behind := read_behind opened ready (.down (text.toList.count '\n' + 1)) more
    dsimp only at behind
    rw [← List.foldl_cons, ← List.foldl_append, ← joined] at behind
    exact behind
  · obtain ⟨clean, kept⟩ := (parse_eq_ok_iff_read text parsed).mp ok
    rw [scanned, List.foldl_append, List.foldl_cons, List.foldl_nil] at clean kept
    obtain ⟨_, none, same⟩ := feed_semicolon_of_clean is atEnd clean
    rw [none, same, kept]
    exact ⟨rfl, rfl⟩

/-- A semicolon keeps faults apart: if nothing is open before it, the text up to it is read
as if nothing came after, and the text on the next line as if nothing had come before. -/
theorem read_append_semicolon (text more : String)
    (whole : (∃ program, parse text = .ok program) ∨
      ∀ token ∈ scan text, ¬ token.IsSign .leftBrace) :
    (read (text ++ ";\n" ++ more)).program =
        (read (text ++ ";\n")).program ++ (read more).program ∧
      (read (text ++ ";\n" ++ more)).errors = (read (text ++ ";\n")).errors ++
        (read more).errors.map (.moved (.down (text.toList.count '\n' + 1))) ∧
      ∀ first second, parse text = .ok first → parse more = .ok second →
        parse (text ++ ";\n" ++ more) = .ok (first ++ second) := by
  obtain ⟨program, errors, joined, parsed⟩ := read_up_to_semicolon text whole
  have alone := joined ""
  rw [read_empty, String.append_empty, List.append_nil, List.map_nil, List.append_nil] at alone
  rw [alone.1, alone.2]
  refine ⟨(joined more).1, (joined more).2, fun first second ok okMore => ?_⟩
  obtain ⟨rfl, rfl⟩ := parsed first ok
  obtain ⟨clean, rfl⟩ := (parse_eq_ok_iff_clean more second).mp okMore
  refine (parse_eq_ok_iff_clean _ _).mpr ⟨?_, (joined more).1⟩
  rw [(joined more).2, clean]
  rfl

/-- A statement with two faults does not touch the one behind it. -/
theorem read_append_semicolon_behind_faults :
    (∀ token ∈ scan "var = 1 )", ¬ token.IsSign .leftBrace) ∧
      (read ("var = 1 )" ++ ";\n" ++ "var y = 2")).program =
        (read ("var = 1 )" ++ ";\n")).program ++ (read "var y = 2").program ∧
      (read ("var = 1 )" ++ ";\n" ++ "var y = 2")).errors =
        (read ("var = 1 )" ++ ";\n")).errors ++ (read "var y = 2").errors.map (.moved (.down 1)) := by
  have braceless : ∀ token ∈ scan "var = 1 )", ¬ token.IsSign .leftBrace := by decide +kernel
  obtain ⟨program, errors, _⟩ := read_append_semicolon "var = 1 )" "var y = 2" (.inr braceless)
  exact ⟨braceless, program, errors⟩

end ScopeScript
