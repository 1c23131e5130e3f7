import ScopeScript.Proofs.Grammar.Step
import ScopeScript.Proofs.Reading.Moves

namespace ScopeScript

namespace Parser

variable {parser : Parser} {reader other final : Reader}

@[simp] theorem current_advance (parser : Parser) : parser.advance.current = parser.peek := rfl

/-- From here on the tokens bring the reader to `final`. -/
def Brings (parser : Parser) (reader final : Reader) : Prop :=
  parser.ahead.foldl Reader.feed reader = final

/-- Readers that do the same with the current token are brought to the same. -/
theorem Brings.congr (brings : parser.Brings reader final)
    (same : reader.feed parser.current = other.feed parser.current) :
    parser.Brings other final := by
  obtain ⟨more, begins⟩ := parser.exists_ahead_eq_cons
  unfold Brings at brings ⊢
  rw [begins, List.foldl_cons] at brings ⊢
  rw [← same, brings]

/-- The current token is fed, and the next one is the current one. -/
theorem Brings.fed (brings : parser.Brings reader final)
    (more : parser.current.kind ≠ .endOfInput) (feeds : reader.feed parser.current = other) :
    parser.advance.Brings other final := by
  unfold Brings at brings ⊢
  rw [ahead_of_more more, List.foldl_cons, feeds] at brings
  exact brings

theorem Brings.of_fed (brings : parser.advance.Brings other final)
    (more : parser.current.kind ≠ .endOfInput) (feeds : reader.feed parser.current = other) :
    parser.Brings reader final := by
  unfold Brings at brings ⊢
  rw [ahead_of_more more, List.foldl_cons, feeds, brings]

end Parser

namespace Parse

variable {α β : Type} {ok : α → Parser → Prop} {okNext : β → Parser → Prop}
  {failed : SyntaxError → Parser → Prop} {parser : Parser}

/-- What is ensured of a result, or of an error. -/
def Ends (ok : α → Parser → Prop) (failed : SyntaxError → Parser → Prop) :
    Except SyntaxError α → Parser → Prop
  | .ok value, after => ok value after
  | .error error, after => failed error after

/-- If reading returns, a result has the one property and an error has the other. -/
def Ensures (action : Parse α) (parser : Parser) (ok : α → Parser → Prop)
    (failed : SyntaxError → Parser → Prop) : Prop :=
  ∀ ending after, action.perform parser = some (ending, after) → Ends ok failed ending after

namespace Ensures

theorem pure {value : α} (holds : ok value parser) : Ensures (pure value) parser ok failed := by
  rintro ending after ⟨⟩
  exact holds

theorem bind {first : Parse α} {next : α → Parse β} (ensures : Ensures first parser ok failed)
    (rest : ∀ value after, ok value after → Ensures (next value) after okNext failed) :
    Ensures (first >>= next) parser okNext failed := by
  intro ending after ran
  rw [perform_bind] at ran
  cases here : first.perform parser with
  | none =>
    rw [here] at ran
    cases ran
  | some result =>
    obtain ⟨between, there⟩ := result
    have ends := ensures between there here
    rw [here] at ran
    cases between with
    | ok value => exact rest value there ends ending after ran
    | error error =>
      cases ran
      exact ends

theorem bind_of_ok {first : Parse α} {next : α → Parse β} {value : α} {after : Parser}
    (ran : first.perform parser = some (.ok value, after))
    (rest : Ensures (next value) after okNext failed) :
    Ensures (first >>= next) parser okNext failed := by
  intro ending there goes
  rw [perform_bind, ran] at goes
  exact rest ending there goes

theorem look_bind {next : Parser → Parse β}
    (rest : Ensures (next parser) parser okNext failed) :
    Ensures (look >>= next) parser okNext failed :=
  bind_of_ok (perform_look parser) rest

theorem advance_bind {next : Unit → Parse β}
    (rest : Ensures (next ()) parser.advance okNext failed) :
    Ensures (Parse.advance >>= next) parser okNext failed :=
  bind_of_ok (perform_advance parser) rest

theorem ite {c : Prop} [Decidable c] {first other : Parse α}
    (yes : c → Ensures first parser ok failed) (no : ¬c → Ensures other parser ok failed) :
    Ensures (if c then first else other) parser ok failed := by
  split
  · exact yes ‹_›
  · exact no ‹_›

theorem weaken {action : Parse α} {more : SyntaxError → Parser → Prop}
    (ensures : Ensures action parser ok failed)
    (weaker : ∀ error after, failed error after → more error after) :
    Ensures action parser ok more := by
  intro ending after ran
  have ends := ensures ending after ran
  cases ending with
  | ok value => exact ends
  | error error => exact weaker error after ends

theorem mono {action : Parse α} {more : α → Parser → Prop}
    (ensures : Ensures action parser ok failed)
    (weaker : ∀ value after, ok value after → more value after) :
    Ensures action parser more failed := by
  intro ending after ran
  have ends := ensures ending after ran
  cases ending with
  | ok value => exact weaker value after ends
  | error error => exact ends

end Ensures

end Parse

namespace Kind

theorem goesOn_of_level {kind : Kind} (loose : kind.level ≤ 0) : kind.goesOn = false := by
  cases kind with
  | punctuation sign => cases sign <;> first | rfl | exact absurd loose (by decide)
  | _ => rfl

theorem level_of_operator? {kind : Kind} {op : Operator} (is : kind.operator? = some op) :
    kind.level = op.level := by
  cases kind with
  | punctuation sign =>
    cases sign <;> first
      | cases is; rfl
      | cases is
  | _ => cases is

theorem level_of_not_operator? {kind : Kind} (other : kind ≠ .punctuation .leftParen)
    (is : kind.operator? = none) : kind.level = 0 := by
  cases kind with
  | punctuation sign => cases sign <;> first | rfl | exact absurd rfl other | cases is
  | _ => rfl

end Kind

theorem Hole.level_pos (hole : Hole) : 0 < hole.level := by
  cases hole <;> exact Nat.succ_pos _

namespace Reader

variable {reader : Reader} {token : Token} {value : Expr} {hole : Hole}

/-- What no expression goes on with ends the one that was read. -/
theorem feed_of_loose {opened : List OpenBlock} {kept : Block} {errors : List SyntaxError}
    (loose : token.kind.level ≤ 0) :
    feed ⟨opened, kept, .operator value hole, errors⟩ token =
      settle ⟨opened, kept, .operator value hole, errors⟩ token value hole :=
  feedOperator_of_goesOn (Kind.goesOn_of_level loose)

/-- An operator that binds no tighter than the pending one takes both operands of it. -/
theorem feedOperator_right {op : Operator} {first : Expr} (loose : token.kind.level ≤ op.level) :
    reader.feedOperator value (.right op first hole) token =
      reader.feedOperator (.binary op first value) hole token := by
  have below := op.level_lt_negationLevel
  unfold feedOperator
  split
  · rename_i is
    rw [is] at loose
    exact absurd loose (Nat.not_le_of_lt (Nat.lt_succ_of_lt below))
  · rename_i sign other is
    cases known : Operator.ofSign? sign with
    | none => rfl
    | some next =>
      have level : token.kind.level = next.level :=
        Kind.level_of_operator? (by rw [is]; exact known)
      have below : ¬op.level < next.level := by omega
      simp only [Hole.behind, if_neg below]
  · rfl

theorem feedOperator_negation (loose : token.kind.level ≤ Operator.negationLevel) :
    reader.feedOperator value (.negation hole) token =
      reader.feedOperator value.negation hole token := by
  unfold feedOperator
  split
  · rename_i is
    rw [is] at loose
    exact absurd loose (by decide)
  · split <;> rfl
  · rfl

theorem feedOperator_of_operator? {op : Operator} (is : token.kind.operator? = some op) :
    reader.feedOperator value hole token = reader.await (.operand (hole.behind op value)) := by
  cases kind : token.kind with
  | punctuation sign => exact feedOperator_of_ofSign? kind (by rwa [kind] at is)
  | _ =>
    rw [kind] at is
    cases is

section Pending

variable {opened : List OpenBlock} {kept : Block} {errors : List SyntaxError}

/-- An operator that is pending may take its operands as soon as it is clear that it will. -/
theorem feed_right {op : Operator} {first : Expr} (loose : token.kind.level ≤ op.level) :
    feed ⟨opened, kept, .operator value (.right op first hole), errors⟩ token =
      feed ⟨opened, kept, .operator (.binary op first value) hole, errors⟩ token := by
  change (await ⟨opened, kept, .statement, errors⟩ _).feed token =
    (await ⟨opened, kept, .statement, errors⟩ _).feed token
  rw [feed_operator, feed_operator, feedOperator_right loose]

theorem feed_negation (loose : token.kind.level ≤ Operator.negationLevel) :
    feed ⟨opened, kept, .operator value (.negation hole), errors⟩ token =
      feed ⟨opened, kept, .operator value.negation hole, errors⟩ token := by
  change (await ⟨opened, kept, .statement, errors⟩ _).feed token =
    (await ⟨opened, kept, .statement, errors⟩ _).feed token
  rw [feed_operator, feed_operator, feedOperator_negation loose]

end Pending

/-- At the end of the text the innermost block may be given up before the others. -/
theorem finish_cons (block : OpenBlock) (outer : List OpenBlock) (kept : Block)
    (expects : Expectation) (errors : List SyntaxError) (token : Token) :
    finish ⟨block :: outer, kept, expects, errors⟩ token =
      finish ⟨outer, block.around, .statement,
        ⟨.unexpected (.punctuation .rightBrace) token.kind, token.position⟩ :: errors⟩ token := by
  cases outer with
  | nil => rfl
  | cons next more =>
    simp only [finish, List.getLast?_cons, Option.map_some, Option.getD_some, List.length_cons]
    rw [List.replicate_succ', List.append_assoc, List.singleton_append]

end Reader

/-- A reader that expects this is brought to `final` from the current token on. -/
def Parser.Before (opened : List OpenBlock) (kept : Block) (final : Reader) (expects : Expectation)
    (parser : Parser) : Prop :=
  parser.Brings ⟨opened, kept, expects, parser.errors⟩ final

/-- A reader that expects this is brought to `final` by what stands behind the current token. -/
def Parser.Behind (opened : List OpenBlock) (kept : Block) (final : Reader) (expects : Expectation)
    (parser : Parser) : Prop :=
  parser.advance.Brings ⟨opened, kept, expects, parser.errors⟩ final

namespace Parser.Behind

variable {opened : List OpenBlock} {kept : Block} {final other : Reader} {expects : Expectation}
  {parser : Parser}

/-- The next token is fed. -/
theorem fed (behind : parser.Behind opened kept final expects)
    (more : parser.peek.kind ≠ .endOfInput)
    (feeds : Reader.feed ⟨opened, kept, expects, parser.errors⟩ parser.peek = other) :
    parser.advance.advance.Brings other final :=
  Brings.fed behind more feeds

theorem congr (behind : parser.Behind opened kept final expects)
    (same : Reader.feed ⟨opened, kept, expects, parser.errors⟩ parser.peek =
      other.feed parser.peek) :
    parser.advance.Brings other final :=
  Brings.congr behind same

end Parser.Behind

/-- The statement that is read is given up with the error, and the next one may begin behind
the current token. -/
def Parser.GivesUp (opened : List OpenBlock) (kept : Block) (final : Reader) (error : SyntaxError)
    (after : Parser) : Prop :=
  after.advance.Brings ⟨opened, kept, .statement, error :: after.errors⟩ final

namespace Parse.Ensures

variable {α β : Type} {okNext : β → Parser → Prop} {parser : Parser} {opened : List OpenBlock}
  {kept : Block} {final : Reader} {expects after : Expectation} {kind : Kind}
  {next : Unit → Parse β}

theorem expectPeek_bind (brings : parser.Behind opened kept final expects)
    (miss : parser.peek.kind ≠ kind →
      Reader.feed ⟨opened, kept, expects, parser.errors⟩ parser.peek =
        Reader.refuse ⟨opened, kept, expects, parser.errors⟩ kind parser.peek)
    (hit : parser.peek.kind = kind →
      Ensures (next ()) parser.advance okNext (Parser.GivesUp opened kept final)) :
    Ensures (expectPeek kind >>= next) parser okNext (Parser.GivesUp opened kept final) := by
  intro ending there ran
  rw [perform_bind, expectPeek, perform_bind, perform_look] at ran
  dsimp only at ran
  by_cases is : parser.peek.kind = kind
  · rw [if_pos is, perform_advance] at ran
    exact hit is ending there ran
  · rw [if_neg is, perform_throw] at ran
    cases ran
    exact brings.congr (miss is)

/-- One kind of token goes on. -/
theorem expect_bind (proper : kind ≠ .endOfInput)
    (brings : parser.Behind opened kept final expects)
    (feeds : Reader.feed ⟨opened, kept, expects, parser.errors⟩ parser.peek =
      Reader.expect ⟨opened, kept, expects, parser.errors⟩ kind after parser.peek)
    (rest : parser.advance.Behind opened kept final after →
      Ensures (next ()) parser.advance okNext (Parser.GivesUp opened kept final)) :
    Ensures (expectPeek kind >>= next) parser okNext (Parser.GivesUp opened kept final) := by
  refine expectPeek_bind brings (fun other => ?_) fun is => rest (brings.fed ?_ ?_)
  · rw [feeds, Reader.expect, if_neg other]
  · exact fun ended => proper (is.symm.trans ended)
  · rw [feeds, Reader.expect, if_pos is]
    rfl

/-- A left brace opens a block. -/
theorem expectBlock_bind {owner : BlockOwner}
    (brings : parser.Behind opened kept final expects)
    (feeds : Reader.feed ⟨opened, kept, expects, parser.errors⟩ parser.peek =
      Reader.expectBlock ⟨opened, kept, expects, parser.errors⟩ owner parser.peek)
    (rest : parser.advance.Behind (⟨owner, kept⟩ :: opened) [] final .statement →
      Ensures (next ()) parser.advance okNext (Parser.GivesUp opened kept final)) :
    Ensures (expectPeek (.punctuation .leftBrace) >>= next) parser okNext
      (Parser.GivesUp opened kept final) := by
  refine expectPeek_bind brings (fun other => ?_) fun is => rest (brings.fed ?_ ?_)
  · rw [feeds, Reader.expectBlock, if_neg other]
  · exact fun ended => by cases is.symm.trans ended
  · rw [feeds, Reader.expectBlock, if_pos is]
    rfl

/-- A fault gives up the statement it is in. -/
theorem fault {ok : α → Parser → Prop} {wrong : Fault}
    (brings : parser.advance.Brings
      ⟨opened, kept, .statement, ⟨wrong, parser.current.position⟩ :: parser.errors⟩ final) :
    Ensures (fault wrong : Parse α) parser ok (Parser.GivesUp opened kept final) := by
  rintro ending there ⟨⟩
  exact brings

end Parse.Ensures

end ScopeScript
