import Mathlib.Logic.Relation
import ScopeScript.Proofs.Reading.Moves

namespace ScopeScript

namespace Parse

variable {α β : Type}

/-- Two ways of reading return, and return the same, some moves behind. What holds of a result
and the parser behind it is said in addition. -/
def Return (first second : Parse α) (parser : Parser) (ok : α → Parser → Prop) : Prop :=
  ∃ ending after, first.perform parser = some (ending, after) ∧
    second.perform parser = some (ending, after) ∧ parser.Moves after ∧
      ∀ value, ending = .ok value → ok value after

namespace Return

variable {parser : Parser} {ok : α → Parser → Prop} {okNext : β → Parser → Prop}

theorem pure {value : α} (holds : ok value parser) : Return (pure value) (pure value) parser ok := by
  refine ⟨.ok value, parser, rfl, rfl, .refl parser, ?_⟩
  rintro _ ⟨⟩
  exact holds

theorem throw (error : SyntaxError) :
    Return (throw error : Parse α) (throw error) parser ok :=
  ⟨.error error, parser, rfl, rfl, .refl parser, fun _ same => by cases same⟩

theorem bind {first second : Parse α} {next other : α → Parse β}
    (returns : Return first second parser ok)
    (rest : ∀ value after, parser.Moves after → ok value after →
      Return (next value) (other value) after okNext) :
    Return (first >>= next) (second >>= other) parser okNext := by
  obtain ⟨ending, between, ran, ranToo, moves, holds⟩ := returns
  cases ending with
  | error error =>
    refine ⟨.error error, between, ?_, ?_, moves, fun _ same => by cases same⟩
    · rw [perform_bind, ran]
    · rw [perform_bind, ranToo]
  | ok value =>
    obtain ⟨ending, after, goes, goesToo, more, good⟩ := rest value between moves (holds value rfl)
    refine ⟨ending, after, ?_, ?_, moves.trans more, good⟩
    · rw [perform_bind, ran]
      exact goes
    · rw [perform_bind, ranToo]
      exact goesToo

theorem mono {first second : Parse α} {more : α → Parser → Prop}
    (returns : Return first second parser ok)
    (weaker : ∀ value after, ok value after → more value after) :
    Return first second parser more := by
  obtain ⟨ending, after, ran, ranToo, moves, holds⟩ := returns
  exact ⟨ending, after, ran, ranToo, moves, fun value is => weaker value after (holds value is)⟩

theorem look : Return look look parser fun value after => value = parser ∧ after = parser :=
  ⟨.ok parser, parser, rfl, rfl, .refl parser, fun _ same => by cases same; exact ⟨rfl, rfl⟩⟩

theorem look_bind {next other : Parser → Parse β}
    (rest : Return (next parser) (other parser) parser okNext) :
    Return (Parse.look >>= next) (Parse.look >>= other) parser okNext := by
  refine look.bind ?_
  rintro _ _ _ ⟨rfl, rfl⟩
  exact rest

theorem ite {c : Prop} [Decidable c] {first second other another : Parse α}
    (yes : c → Return first second parser ok) (no : ¬c → Return other another parser ok) :
    Return (if c then first else other) (if c then second else another) parser ok := by
  by_cases holds : c
  · rw [if_pos holds, if_pos holds]
    exact yes holds
  · rw [if_neg holds, if_neg holds]
    exact no holds

theorem advance : Return advance advance parser fun _ after => after = parser.advance :=
  ⟨.ok (), parser.advance, rfl, rfl, Parser.Moves.advance parser,
    fun _ same => by cases same; rfl⟩

theorem fault (wrong : Fault) : Return (fault wrong : Parse α) (fault wrong) parser ok :=
  look_bind (throw _)

/-- Who expects a token and finds it has passed one. -/
theorem expectPeek {kind : Kind} (more : kind ≠ .endOfInput) :
    Return (expectPeek kind) (expectPeek kind) parser fun _ after => after.left < parser.left := by
  refine look_bind (ite (fun is => advance.mono ?_) fun _ => throw _)
  rintro _ _ rfl
  exact Parser.left_advance_lt_of_peek (is ▸ more)

theorem skipSemicolon : Return skipSemicolon skipSemicolon parser fun _ _ => True := by
  exact look_bind (ite (fun _ => advance.mono fun _ _ _ => trivial) fun _ => pure trivial)

theorem unlessClosed {first second : Parse (List α)}
    (returns : Return first second parser fun _ _ => True) :
    Return (unlessClosed first) (unlessClosed second) parser fun _ _ => True :=
  look_bind (ite (fun _ => advance.bind fun _ _ _ _ => pure trivial) fun _ => returns)

theorem ended {first second : Parse α} (stmt : α → Stmt)
    (returns : Return first second parser fun _ _ => True) :
    Return (ended first stmt) (ended second stmt) parser fun _ _ => True :=
  returns.bind fun _ _ _ _ => skipSemicolon.bind fun _ _ _ _ => pure trivial

theorem statementInto {first second : Parse Stmt} (kept : Block)
    (returns : Return first second parser fun _ _ => True) :
    Return (statementInto first kept) (statementInto second kept) parser fun _ _ => True := by
  refine look_bind (ite (fun _ => pure trivial) fun _ => ?_)
  obtain ⟨ending, after, ran, ranToo, moves, -⟩ := returns
  cases ending with
  | ok value =>
    refine ⟨.ok (value :: kept), after, ?_, ?_, moves, fun _ _ => trivial⟩
    · rw [perform_tryCatch, perform_bind, ran]
      rfl
    · rw [perform_tryCatch, perform_bind, ranToo]
      rfl
  | error error =>
    refine ⟨.ok kept, after.record error, ?_, ?_, moves.record error, fun _ _ => trivial⟩
    · rw [perform_tryCatch, perform_bind, ran]
      rfl
    · rw [perform_tryCatch, perform_bind, ranToo]
      rfl

/-- A round of a loop over statements passes a token. -/
theorem round {first second : Parse Stmt} {next other : Block → Parse α} (kept : Block)
    (more : parser.current.kind ≠ .endOfInput)
    (returns : Return first second parser fun _ _ => True)
    (rest : ∀ kept after, after.left < parser.left → Return (next kept) (other kept) after ok) :
    Return (do let kept ← Parse.statementInto first kept; Parse.advance; next kept)
      (do let kept ← Parse.statementInto second kept; Parse.advance; other kept) parser ok := by
  refine (statementInto kept returns).bind fun kept between moves _ => advance.bind ?_
  rintro _ after _ rfl
  exact rest kept _ (moves.left_advance_lt more)

end Return

end Parse

namespace Construct

open Parse

variable {read other : (part : Construct) → Parse part.Result} {parser : Parser}

/-- Whatever lies within the whole is read, in the same way by both. -/
def Reads (read other : (part : Construct) → Parse part.Result) (whole : Construct)
    (parser : Parser) : Prop :=
  ∀ part there, part.Within there whole parser →
    Return (read part) (other part) there fun _ _ => True

section Calls

variable {whole : Construct} {there : Parser}

/-- A part of a lower rank may be read wherever the whole has come to. -/
theorem Reads.lower (reads : Reads read other whole parser) (part : Construct)
    (moves : parser.Moves there) (lower : part.rank < whole.rank) :
    Return (read part) (other part) there fun _ _ => True := by
  refine reads part there ?_
  rcases Nat.lt_or_eq_of_le moves.left_le with fewer | same
  · exact .inl fewer
  · exact .inr ⟨same, lower⟩

theorem Reads.fewer (reads : Reads read other whole parser) (part : Construct)
    (fewer : there.left < parser.left) :
    Return (read part) (other part) there fun _ _ => True :=
  reads part there (.inl fewer)

end Calls

theorem returns_statement (reads : Reads read other statement parser) :
    Return (body read statement) (body other statement) parser fun _ _ => True := by
  have expression : Return (ended (read (expression 0)) .expression)
      (ended (other (expression 0)) .expression) parser fun _ _ => True :=
    .ended _ (reads.lower _ (.refl parser) (by decide))
  refine .look_bind ?_
  cases parser.current.kind with
  | keyword word =>
    cases word with
    | varWord =>
      refine (Return.expectPeek (by decide)).bind fun _ named moves _ => .look_bind ?_
      refine (Return.expectPeek (by decide)).bind fun _ equal more _ => ?_
      refine Return.advance.bind fun _ there last _ => .ended _ (reads.lower _ ?_ (by decide))
      exact (moves.trans more).trans last
    | ifWord => exact .ended _ (reads.lower _ (.refl parser) (by decide))
    | functionWord =>
      refine .look_bind (.ite (fun _ => ?_) fun _ => expression)
      refine (Return.expectPeek (by decide)).bind fun _ named _ fewer => .look_bind ?_
      exact .ended _ (reads.fewer _ fewer)
    | returnWord | exitWord =>
      exact Return.advance.bind fun _ there moves _ => .ended _ (reads.lower _ moves (by decide))
    | _ => exact expression
  | _ => exact expression

/-- An operator is passed before its second operand and before the next round of the loop. -/
theorem returns_operators {floor : Nat} {first : Expr}
    (reads : Reads read other (operators floor first) parser) :
    Return (body read (operators floor first)) (body other (operators floor first)) parser
      fun _ _ => True := by
  refine .look_bind (.ite (fun goesOn => Return.advance.bind ?_) fun _ => .pure trivial)
  rintro _ between _ rfl
  have more : parser.peek.kind ≠ .endOfInput := by
    intro ended
    rw [ended] at goesOn
    exact absurd goesOn.2 (Nat.not_lt_zero floor)
  have fewer := Parser.left_advance_lt_of_peek more
  refine (reads.fewer _ fewer).bind fun whole after moves _ => ?_
  exact reads.fewer _ (Nat.lt_of_le_of_lt moves.left_le fewer)

theorem returns_operand (reads : Reads read other operand parser) :
    Return (body read operand) (body other operand) parser fun _ _ => True := by
  refine .look_bind ?_
  cases kind : parser.current.kind with
  | integer =>
    dsimp only
    cases Reader.integer? parser.current.lexeme with
    | some value => exact .pure trivial
    | none => exact .fault _
  | identifier => exact .pure trivial
  | keyword word =>
    cases word with
    | trueWord | falseWord => exact .pure trivial
    | ifWord => exact reads.lower _ (.refl parser) (by decide)
    | functionWord =>
      exact (reads.lower _ (.refl parser) (by decide)).bind fun _ _ _ _ => .pure trivial
    | _ => exact .fault _
  | punctuation sign =>
    have fewer := (Parser.Moves.refl parser).left_advance_lt (by simp [kind])
    cases sign with
    | leftParen =>
      refine Return.advance.bind ?_
      rintro _ there _ rfl
      refine (reads.fewer _ fewer).bind fun value after _ _ => ?_
      exact (Return.expectPeek (by decide)).bind fun _ _ _ _ => .pure trivial
    | minus =>
      refine Return.advance.bind ?_
      rintro _ there _ rfl
      exact (reads.fewer _ fewer).bind fun _ _ _ _ => .pure trivial
    | _ => exact .fault _
  | _ => exact .fault _

theorem returns_operation {first : Expr} (reads : Reads read other (operation first) parser) :
    Return (body read (operation first)) (body other (operation first)) parser
      fun _ _ => True := by
  refine .look_bind (.ite (fun opens => ?_) fun _ => ?_)
  · have fewer := (Parser.Moves.refl parser).left_advance_lt (by simp [opens])
    refine (Return.unlessClosed (Return.advance.bind ?_)).bind fun _ _ _ _ => .pure trivial
    rintro _ there _ rfl
    exact reads.fewer _ fewer
  · cases operator : parser.current.kind.operator? with
    | none => exact .fault _
    | some op =>
      have more : parser.current.kind ≠ .endOfInput := by
        intro ended
        rw [ended] at operator
        cases operator
      have fewer := (Parser.Moves.refl parser).left_advance_lt more
      refine Return.advance.bind ?_
      rintro _ there _ rfl
      exact (reads.fewer _ fewer).bind fun _ _ _ _ => .pure trivial

/-- All parts stand behind the first parenthesis. -/
theorem returns_conditional (reads : Reads read other conditional parser) :
    Return (body read conditional) (body other conditional) parser fun _ _ => True := by
  refine (Return.expectPeek (by decide)).bind fun _ opened _ fewer => ?_
  refine Return.advance.bind fun _ there first _ => ?_
  have fewer := Nat.lt_of_le_of_lt first.left_le fewer
  refine (reads.fewer _ fewer).bind fun condition after second _ => ?_
  refine (Return.expectPeek (by decide)).bind fun _ closed third _ => ?_
  refine (Return.expectPeek (by decide)).bind fun _ entered fourth _ => ?_
  have fewer := Nat.lt_of_le_of_lt ((second.trans third).trans fourth).left_le fewer
  refine (reads.fewer _ fewer).bind fun consequence left fifth _ => .look_bind ?_
  refine .ite (fun _ => ?_) fun _ => .pure trivial
  refine Return.advance.bind fun _ otherwise sixth _ => ?_
  refine (Return.expectPeek (by decide)).bind fun _ again seventh _ => ?_
  have fewer := Nat.lt_of_le_of_lt ((fifth.trans sixth).trans seventh).left_le fewer
  exact (reads.fewer _ fewer).bind fun _ _ _ _ => .pure trivial

/-- A block ends at the end of the text at the latest, and a round of it begins elsewhere. -/
theorem returns_statements {kept : Block} (reads : Reads read other (statements kept) parser) :
    Return (body read (statements kept)) (body other (statements kept)) parser
      fun _ _ => True := by
  have round (more : parser.current.kind ≠ .endOfInput) := Return.round kept more
    (reads.lower statement (.refl parser) (by decide : 3 < 4))
    fun kept there fewer => reads.fewer (statements kept) fewer
  refine .look_bind ?_
  cases kind : parser.current.kind with
  | endOfInput => exact .fault _
  | punctuation sign =>
    cases sign with
    | rightBrace => exact .pure trivial
    | _ => exact round (by simp [kind])
  | _ => exact round (by simp [kind])

theorem returns_function (reads : Reads read other function parser) :
    Return (body read function) (body other function) parser fun _ _ => True := by
  refine (Return.expectPeek (by decide)).bind fun _ opened _ fewer => ?_
  refine (Return.unlessClosed (reads.fewer _ fewer)).bind fun names closed first _ => ?_
  refine (Return.expectPeek (by decide)).bind fun _ entered second _ => ?_
  have fewer := Nat.lt_of_le_of_lt (first.trans second).left_le fewer
  exact (reads.fewer _ fewer).bind fun _ _ _ _ => .pure trivial

/-- A round passes the name of a parameter. -/
theorem returns_parameters {earlier : List String}
    (reads : Reads read other (parameters earlier) parser) :
    Return (body read (parameters earlier)) (body other (parameters earlier)) parser
      fun _ _ => True := by
  refine (Return.expectPeek (by decide)).bind fun _ named _ fewer => .look_bind ?_
  refine .ite (fun _ => Return.advance.bind fun _ there moves _ => ?_) fun _ => ?_
  · exact reads.fewer _ (Nat.lt_of_le_of_lt moves.left_le fewer)
  · exact (Return.expectPeek (by decide)).bind fun _ _ _ _ => .pure trivial

/-- A round passes a comma, which is not the end. -/
theorem returns_arguments {earlier : List Expr}
    (reads : Reads read other (arguments earlier) parser) :
    Return (body read (arguments earlier)) (body other (arguments earlier)) parser
      fun _ _ => True := by
  refine (reads.lower _ (.refl parser) (by simp [rank])).bind fun value after moves _ => ?_
  refine .look_bind (.ite (fun comma => Return.advance.bind ?_) fun _ => ?_)
  · rintro _ between _ rfl
    have more : after.peek.kind ≠ .endOfInput := by simp [comma]
    have fewer := Parser.left_advance_lt_of_peek more
    refine Return.advance.bind fun _ there more _ => reads.fewer _ ?_
    exact Nat.lt_of_le_of_lt more.left_le (Nat.lt_of_lt_of_le fewer moves.left_le)
  · exact (Return.expectPeek (by decide)).bind fun _ _ _ _ => .pure trivial

/-- A construct returns if all that lies within it does. -/
theorem body_returns {whole : Construct} (reads : Reads read other whole parser) :
    Return (whole.body read) (whole.body other) parser fun _ _ => True := by
  cases whole with
  | program kept =>
    refine .look_bind (.ite (fun _ => .pure trivial) fun more => ?_)
    exact .round kept more (reads.lower _ (.refl parser) (by simp [rank]))
      fun kept there fewer => reads.fewer _ fewer
  | statement => exact returns_statement reads
  | expression floor =>
    refine (reads.lower _ (.refl parser) (by simp [rank])).bind fun first between moves _ => ?_
    exact reads.lower _ moves (by simp [rank])
  | operators floor first => exact returns_operators reads
  | operand => exact returns_operand reads
  | operation first => exact returns_operation reads
  | conditional => exact returns_conditional reads
  | block =>
    refine Return.advance.bind fun _ between moves _ => ?_
    exact reads.lower _ moves (by simp [rank])
  | statements kept => exact returns_statements reads
  | function => exact returns_function reads
  | parameters earlier => exact returns_parameters reads
  | arguments earlier => exact returns_arguments reads

/-- Reading never gets stuck: wherever a construct is read, all parts that it asks for lie within
it, and so do theirs. -/
theorem run_returns (whole : Construct) (parser : Parser) :
    ∃ ending after, whole.run parser = some (ending, after) ∧
      (whole.body parse).perform parser = some (ending, after) ∧ parser.Moves after := by
  have reads : Reads (whole.guarded parser) parse whole parser := by
    intro part there within
    obtain ⟨ending, after, ran, _, moves⟩ := part.run_returns there
    refine ⟨ending, after, ?_, ran, moves, fun _ _ => trivial⟩
    rw [perform_guarded, if_pos within, ran]
  obtain ⟨ending, after, ran, same, moves, -⟩ := body_returns reads
  exact ⟨ending, after, by rw [run_eq, ran], same, moves⟩
termination_by (parser.left, whole.rank)
decreasing_by exact Within.lex ‹_›

/-- The first construct, where it begins, is asked for by the second: the reading of the second
may change if nothing changes but how the first is read there. -/
def Asked (part whole : Construct × Parser) : Prop :=
  ∃ read : (other : Construct) → Parse other.Result,
    (∀ other there, (other, there) ≠ part → (read other).perform there = other.run there) ∧
      (whole.1.body read).perform whole.2 ≠ (whole.1.body parse).perform whole.2

/-- The first construct, where it begins, lies within the second. -/
def Inside (part whole : Construct × Parser) : Prop :=
  part.1.Within part.2 whole.1 whole.2

/-- Whatever a construct asks for lies within it, also the next round of a loop. -/
theorem Asked.inside {part whole : Construct × Parser} (asked : Asked part whole) :
    Inside part whole := by
  obtain ⟨read, same, differs⟩ := asked
  by_contra outside
  have reads : Reads read parse whole.1 whole.2 := by
    intro other there within
    have apart : (other, there) ≠ part := by
      rintro rfl
      exact outside within
    obtain ⟨ending, after, ran, _, moves⟩ := other.run_returns there
    exact ⟨ending, after, by rw [same other there apart, ran], ran, moves, fun _ _ => trivial⟩
  obtain ⟨ending, after, ran, ranToo, _⟩ := body_returns reads
  exact differs (ran.trans ranToo.symm)

/-- What cannot be read without a part asks for it. -/
theorem asked_of_stuck {part whole : Construct × Parser}
    (stuck : ∀ read : (other : Construct) → Parse other.Result,
      (read part.1).perform part.2 = none → (whole.1.body read).perform whole.2 = none) :
    Asked part whole := by
  classical
  let lacking (other : Construct) : Parse other.Result :=
    ExceptT.mk fun there => if (other, there) = part then none else other.run there
  have missing : (lacking part.1).perform part.2 = none := if_pos rfl
  refine ⟨lacking, fun other there apart => if_neg apart, ?_⟩
  obtain ⟨ending, after, _, returns, _⟩ := whole.1.run_returns whole.2
  rw [stuck lacking missing, returns]
  exact (Option.some_ne_none _).symm

theorem Within.trans {part middle whole : Construct} {there between parser : Parser}
    (inner : part.Within there middle between) (outer : middle.Within between whole parser) :
    part.Within there whole parser := by
  unfold Within at *
  omega

/-- However deep a construct lies in another one, if its rank is not lower, then fewer tokens are
left where it begins. -/
theorem left_lt_of_nested {part whole : Construct × Parser}
    (nested : Relation.TransGen Inside part whole) (again : whole.1.rank ≤ part.1.rank) :
    part.2.left < whole.2.left := by
  have within : Inside part whole := by
    clear again
    induction nested with
    | single step => exact step
    | tail _ step ih => exact Within.trans ih step
  exact within.resolve_right fun lower => Nat.not_le_of_lt lower.2 again

end Construct

end ScopeScript
