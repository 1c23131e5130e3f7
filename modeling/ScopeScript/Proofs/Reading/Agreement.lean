import ScopeScript.Proofs.Reading.Ensuring
import ScopeScript.Proofs.Reading.Termination

namespace ScopeScript

namespace Construct

open Parse

/-- How reading a construct agrees with feeding its tokens one by one. If the tokens from its
beginning bring a reader that awaits the construct to `final`, then those behind its end bring
a reader that has it to `final`, and if it is given up, then those behind bring a reader that has
given up the statement around it to `final`. -/
def Spec : (whole : Construct) → Parser → Except SyntaxError whole.Result → Parser → Prop
  | program kept, parser, ending, after => ∀ final,
    parser.Before [] kept final .statement →
      Ends (fun program after => after.current.kind = .endOfInput ∧
        final = ⟨[], program.reverse, .statement, after.errors⟩) (fun _ _ => False) ending after
  | statement, parser, ending, after => ∀ opened kept final,
    parser.current.kind ≠ .endOfInput → parser.current.kind ≠ .punctuation .semicolon →
    (parser.current.kind = .punctuation .rightBrace → opened = []) →
    parser.Before opened kept final .statement →
      Ends (fun stmt after => after.Behind opened (stmt :: kept) final .statement)
        (Parser.GivesUp opened kept final) ending after
  | expression floor, parser, ending, after => ∀ opened kept final hole,
    hole.level ≤ floor + 1 →
    parser.Before opened kept final (.operand hole) →
      Ends (fun value after => after.peek.kind.level ≤ floor ∧
        after.Behind opened kept final (.operator value hole))
        (Parser.GivesUp opened kept final) ending after
  | operators floor first, parser, ending, after => ∀ opened kept final hole,
    hole.level ≤ floor + 1 →
    parser.Behind opened kept final (.operator first hole) →
      Ends (fun value after => after.peek.kind.level ≤ floor ∧
        after.Behind opened kept final (.operator value hole))
        (Parser.GivesUp opened kept final) ending after
  | operand, parser, ending, after => ∀ opened kept final hole,
    parser.Before opened kept final (.operand hole) →
      Ends (fun value after => after.Behind opened kept final (.operator value hole))
        (Parser.GivesUp opened kept final) ending after
  | operation first, parser, ending, after => ∀ opened kept final hole,
    hole.level ≤ parser.current.kind.level →
    parser.Before opened kept final (.operator first hole) →
      Ends (fun value after => after.Behind opened kept final (.operator value hole))
        (Parser.GivesUp opened kept final) ending after
  | conditional, parser, ending, after => ∀ opened kept final site,
    parser.Behind opened kept final (.conditionOpen site) →
      Ends (fun value after => after.advance.Brings
        (Reader.completeIf ⟨opened, kept, .statement, after.errors⟩ value site) final)
        (Parser.GivesUp opened kept final) ending after
  | block, parser, ending, after => ∀ opened kept final owner,
    parser.Behind (⟨owner, kept⟩ :: opened) [] final .statement →
      Ends (fun body after => after.advance.Brings
        (Reader.complete ⟨opened, kept, .statement, after.errors⟩ body owner) final)
        (Parser.GivesUp opened kept final) ending after
  | statements inside, parser, ending, after => ∀ opened kept final owner,
    parser.Before (⟨owner, kept⟩ :: opened) inside final .statement →
      Ends (fun body after => after.advance.Brings
        (Reader.complete ⟨opened, kept, .statement, after.errors⟩ body owner) final)
        (Parser.GivesUp opened kept final) ending after
  | function, parser, ending, after => ∀ opened kept final site,
    parser.Behind opened kept final (.parametersOpen site) →
      Ends (fun made after => after.advance.Brings
        (Reader.completeFunction ⟨opened, kept, .statement, after.errors⟩ made.1 made.2 site) final)
        (Parser.GivesUp opened kept final) ending after
  | parameters earlier, parser, ending, after => ∀ opened kept final site,
    parser.Behind opened kept final (.nextParameter earlier site) →
      Ends (fun names after => after.Behind opened kept final (.bodyOpen names.reverse site))
        (Parser.GivesUp opened kept final) ending after
  | arguments earlier, parser, ending, after => ∀ opened kept final callee hole,
    parser.Before opened kept final (.operand (.argument callee earlier hole)) →
      Ends (fun values after => after.Behind opened kept final (.operator (.call callee values) hole))
        (Parser.GivesUp opened kept final) ending after

/-- All that is read agrees with feeding. -/
def Agrees (read : (part : Construct) → Parse part.Result) : Prop :=
  ∀ part parser ending after, (read part).perform parser = some (ending, after) →
    part.Spec parser ending after

variable {read : (part : Construct) → Parse part.Result} {parser : Parser} {opened : List OpenBlock}
  {kept : Block} {final : Reader}

section Parts

variable {hole : Hole}

theorem Agrees.ensures (agrees : Agrees read) (part : Construct)
    {ok : part.Result → Parser → Prop} {failed : SyntaxError → Parser → Prop}
    (meets : ∀ ending after, part.Spec parser ending after → Ends ok failed ending after) :
    Ensures (read part) parser ok failed :=
  fun ending after ran => meets ending after (agrees part parser ending after ran)

/-- An expression is read as it is fed. What stands behind it binds no tighter than the floor. -/
theorem Agrees.expression (agrees : Agrees read) {floor : Nat} (fits : hole.level ≤ floor + 1)
    (brings : parser.Before opened kept final (.operand hole)) :
    Ensures (read (expression floor)) parser (fun value after => after.peek.kind.level ≤ floor ∧
      after.Behind opened kept final (.operator value hole))
      (Parser.GivesUp opened kept final) :=
  agrees.ensures _ fun _ _ spec => spec _ _ _ _ fits brings

end Parts

section Statements

/-- A semicolon behind a statement is passed, and nothing is missing without one. -/
theorem perform_skipSemicolon (parser : Parser) :
    skipSemicolon.perform parser = some (.ok (),
      if parser.peek.kind = .punctuation .semicolon then parser.advance else parser) := by
  unfold skipSemicolon
  rw [perform_bind, perform_look]
  dsimp only
  split <;> rfl

/-- Behind what ends a statement, a semicolon may stand. -/
theorem ensures_ended {α : Type} {part : Parse α} {stmt : α → Stmt}
    (ensures : Ensures part parser (fun value after =>
      after.Behind opened (stmt value :: kept) final .statement)
      (Parser.GivesUp opened kept final)) :
    Ensures (ended part stmt) parser (fun stmt after =>
      after.Behind opened (stmt :: kept) final .statement)
      (Parser.GivesUp opened kept final) := by
  refine ensures.bind fun value after brings => .bind_of_ok (perform_skipSemicolon after) (.pure ?_)
  split
  · rename_i is
    exact brings.fed (by rw [is]; decide) (Reader.feed_semicolon rfl is)
  · exact brings

/-- What no expression goes on with ends the statement, whether a semicolon stands there or the next
statement begins. -/
theorem ensures_ended_expression (agrees : Agrees read) (hole : Hole) (stmt : Expr → Stmt)
    (fits : hole.level ≤ 1)
    (completes : ∀ reader token value, Reader.settle reader token value hole =
      (reader.keep (stmt value)).feedStatement token)
    (brings : parser.Before opened kept final (.operand hole)) :
    Ensures (ended (read (expression 0)) stmt) parser (fun stmt after =>
      after.Behind opened (stmt :: kept) final .statement)
      (Parser.GivesUp opened kept final) := by
  refine ensures_ended ((agrees.expression fits brings).mono fun value after ends => ?_)
  refine ends.2.congr ?_
  rw [Reader.feed_of_loose ends.1, completes]
  rfl

/-- The first token tells the kind of statement, to the descent and to the reader alike. -/
theorem ensures_statement (agrees : Agrees read) (more : parser.current.kind ≠ .endOfInput)
    (proper : parser.current.kind ≠ .punctuation .semicolon)
    (outer : parser.current.kind = .punctuation .rightBrace → opened = [])
    (brings : parser.Before opened kept final .statement) :
    Ensures (body read statement) parser (fun stmt after =>
      after.Behind opened (stmt :: kept) final .statement)
      (Parser.GivesUp opened kept final) := by
  have expression (same : Reader.feedStatement ⟨opened, kept, .statement, parser.errors⟩
      parser.current =
        Reader.feedOperand ⟨opened, kept, .statement, parser.errors⟩ .statement parser.current) :=
    ensures_ended_expression agrees .statement .expression (Nat.le_refl 1) (fun _ _ _ => rfl)
      (brings.congr (same.trans (Reader.feed_operand _ .statement _).symm))
  have passes (expects : Expectation)
      (feeds : Reader.feedStatement ⟨opened, kept, .statement, parser.errors⟩ parser.current =
        ⟨opened, kept, expects, parser.errors⟩) : parser.Behind opened kept final expects :=
    brings.fed more feeds
  refine .look_bind ?_
  cases kind : parser.current.kind with
  | keyword word =>
    cases word with
    | varWord =>
      have named := passes .variableName (by simp only [Reader.feedStatement, kind]; rfl)
      refine .expect_bind (by decide) named rfl fun equal => .look_bind ?_
      refine .expect_bind (by decide) equal rfl fun value => .advance_bind ?_
      exact ensures_ended_expression agrees (.initializer _) (.var _) (Nat.le_refl 1)
        (fun _ _ _ => rfl) value
    | ifWord =>
      have opens := passes (.conditionOpen .statement)
        (by simp only [Reader.feedStatement, kind]; rfl)
      exact ensures_ended (agrees.ensures _ fun _ _ spec => spec _ _ _ .statement opens)
    | functionWord =>
      have named := passes .functionName (by simp only [Reader.feedStatement, kind]; rfl)
      refine .look_bind (.ite (fun is => ?_) fun other => ?_)
      · refine .expectPeek_bind named (absurd is) fun _ => .look_bind ?_
        have site : parser.advance.Behind opened kept final
            (.parametersOpen (.statement parser.peek.lexeme)) :=
          named.fed (by rw [is]; decide) (by simp only [Reader.feed, if_pos is]; rfl)
        exact ensures_ended (agrees.ensures _ fun _ _ spec => spec _ _ _ _ site)
      · have site : parser.Behind opened kept final (.parametersOpen (.operand .statement)) :=
          named.congr (by simp only [Reader.feed, if_neg other]; rfl)
        have value : parser.Before opened kept final (.operand .statement) :=
          site.of_fed more (by simp only [Reader.feed, Reader.feedOperand, kind]; rfl)
        exact ensures_ended_expression agrees .statement .expression (Nat.le_refl 1)
          (fun _ _ _ => rfl) value
    | returnWord =>
      have value := passes (.operand .result) (by simp only [Reader.feedStatement, kind]; rfl)
      exact .advance_bind
        (ensures_ended_expression agrees .result .returns (Nat.le_refl 1) (fun _ _ _ => rfl) value)
    | exitWord =>
      have value := passes (.operand .exitCode) (by simp only [Reader.feedStatement, kind]; rfl)
      exact .advance_bind
        (ensures_ended_expression agrees .exitCode .exits (Nat.le_refl 1) (fun _ _ _ => rfl) value)
    | _ => exact expression (by simp only [Reader.feedStatement, kind])
  | endOfInput => exact absurd kind more
  | punctuation sign =>
    cases sign with
    | semicolon => exact absurd kind proper
    | rightBrace =>
      cases outer kind
      exact expression (by simp only [Reader.feedStatement, Reader.feedOperand, kind])
    | _ => exact expression (by simp only [Reader.feedStatement, kind])
  | _ => exact expression (by simp only [Reader.feedStatement, kind])

/-- A statement is kept, or an error is recorded, and reading goes on behind it. -/
theorem ensures_statementInto (agrees : Agrees read) (more : parser.current.kind ≠ .endOfInput)
    (outer : parser.current.kind = .punctuation .rightBrace → opened = [])
    (brings : parser.Before opened kept final .statement) :
    Ensures (statementInto (read statement) kept) parser (fun kept after =>
      after.Behind opened kept final .statement) fun _ _ => False := by
  refine .look_bind (.ite (fun lone => .pure (brings.fed more (Reader.feed_semicolon rfl lone)))
    fun proper => ?_)
  intro ending after ran
  rw [perform_tryCatch, perform_bind] at ran
  cases here : (read statement).perform parser with
  | none =>
    rw [here] at ran
    cases ran
  | some result =>
    obtain ⟨between, there⟩ := result
    have ends := agrees statement parser between there here _ _ _ more proper outer brings
    rw [here] at ran
    cases between with
    | ok stmt =>
      cases ran
      exact ends
    | error error =>
      cases ran
      exact ends

end Statements

theorem ensures_unlessClosed {α : Type} {items : Parse (List α)} {ok : List α → Parser → Prop}
    {failed : SyntaxError → Parser → Prop}
    (empty : parser.peek.kind = .punctuation .rightParen → ok [] parser.advance)
    (rest : parser.peek.kind ≠ .punctuation .rightParen → Ensures items parser ok failed) :
    Ensures (unlessClosed items) parser ok failed :=
  .look_bind (.ite (fun closed => .advance_bind (.pure (empty closed))) rest)

section Expressions

variable {hole : Hole}

theorem ensures_operand (agrees : Agrees read)
    (brings : parser.Before opened kept final (.operand hole)) :
    Ensures (body read operand) parser (fun value after =>
      after.Behind opened kept final (.operator value hole))
      (Parser.GivesUp opened kept final) := by
  have passes (expects : Expectation) (more : parser.current.kind ≠ .endOfInput)
      (feeds : Reader.feedOperand ⟨opened, kept, .operand hole, parser.errors⟩ hole parser.current =
        ⟨opened, kept, expects, parser.errors⟩) : parser.Behind opened kept final expects :=
    brings.fed more feeds
  have wrong {fault : Fault} (more : parser.current.kind ≠ .endOfInput)
      (blames : Reader.feedOperand ⟨opened, kept, .operand hole, parser.errors⟩ hole
        parser.current = Reader.blame ⟨opened, kept, .operand hole, parser.errors⟩ fault
          parser.current) :
      Ensures (Parse.fault fault : Parse Expr) parser (fun value after =>
        after.Behind opened kept final (.operator value hole))
        (Parser.GivesUp opened kept final) :=
    .fault (brings.fed more blames)
  refine .look_bind ?_
  cases kind : parser.current.kind with
  | integer =>
    dsimp only
    cases value : Reader.integer? parser.current.lexeme with
    | some value =>
      exact .pure (passes _ (by simp [kind]) (by simp only [Reader.feedOperand, kind, value]; rfl))
    | none => exact wrong (by simp [kind]) (by simp only [Reader.feedOperand, kind, value])
  | identifier =>
    exact .pure (passes _ (by simp [kind]) (by simp only [Reader.feedOperand, kind]; rfl))
  | keyword word =>
    cases word with
    | trueWord | falseWord =>
      exact .pure (passes _ (by simp [kind]) (by simp only [Reader.feedOperand, kind]; rfl))
    | ifWord =>
      have opens := passes (.conditionOpen (.operand hole)) (by simp [kind])
        (by simp only [Reader.feedOperand, kind]; rfl)
      exact agrees.ensures _ fun _ _ spec => spec _ _ _ (.operand hole) opens
    | functionWord =>
      have opens := passes (.parametersOpen (.operand hole)) (by simp [kind])
        (by simp only [Reader.feedOperand, kind]; rfl)
      exact (agrees.ensures function fun _ _ spec => spec _ _ _ (.operand hole) opens).bind
        fun made after brings => .pure brings
    | _ => exact wrong (by simp [kind]) (by simp only [Reader.feedOperand, kind])
  | punctuation sign =>
    cases sign with
    | leftParen =>
      have inside := passes (.operand (.group hole)) (by simp [kind])
        (by simp only [Reader.feedOperand, kind]; rfl)
      refine .advance_bind ((agrees.expression (Nat.le_refl 1) inside).bind fun value after ends => ?_)
      exact .expect_bind (by decide) ends.2 (Reader.feed_of_loose ends.1) fun closed => .pure closed
    | minus =>
      have inside := passes (.operand (.negation hole)) (by simp [kind])
        (by simp only [Reader.feedOperand, kind]; rfl)
      refine .advance_bind ((agrees.expression (Nat.le_succ _) inside).bind fun value after ends => ?_)
      exact .pure (ends.2.congr (Reader.feed_negation ends.1))
    | _ => exact wrong (by simp [kind]) (by simp only [Reader.feedOperand, kind])
  | illegal => exact wrong (by simp [kind]) (by simp only [Reader.feedOperand, kind])
  | endOfInput =>
    refine .fault ?_
    rw [Parser.advance_of_ended kind]
    refine brings.congr ?_
    simp only [Reader.feed, Reader.feedOperand, Reader.feedStatement, kind]
    rfl

/-- The loop stops before the first token that binds no tighter than the floor, as the pending holes
are settled. -/
theorem ensures_operators (agrees : Agrees read) {floor : Nat} {first : Expr}
    (fits : hole.level ≤ floor + 1)
    (brings : parser.Behind opened kept final (.operator first hole)) :
    Ensures (body read (operators floor first)) parser (fun value after =>
      after.peek.kind.level ≤ floor ∧
        after.Behind opened kept final (.operator value hole))
      (Parser.GivesUp opened kept final) := by
  refine .look_bind (.ite (fun goesOn => .advance_bind ?_) fun stops => .pure ⟨?_, brings⟩)
  · refine Ensures.bind (agrees.ensures _ fun _ _ spec => spec _ _ _ hole ?_ brings)
      fun whole after brings => agrees.ensures _ fun _ _ spec => spec _ _ _ _ fits brings
    exact Nat.le_trans fits goesOn.2
  · by_cases ends : parser.peek.kind = .punctuation .semicolon
    · rw [ends]
      exact Nat.zero_le floor
    · exact Nat.le_of_not_lt fun tighter => stops ⟨ends, tighter⟩

theorem ensures_operation (agrees : Agrees read) {first : Expr}
    (fits : hole.level ≤ parser.current.kind.level)
    (brings : parser.Before opened kept final (.operator first hole)) :
    Ensures (body read (operation first)) parser (fun value after =>
      after.Behind opened kept final (.operator value hole))
      (Parser.GivesUp opened kept final) := by
  refine .look_bind (.ite (fun opens => ?_) fun other => ?_)
  · have called : parser.Behind opened kept final (.firstArgument first hole) :=
      brings.fed (by rw [opens]; decide) (Reader.feedOperator_of_leftParen opens)
    refine Ensures.bind (ensures_unlessClosed (fun closed => ?_) fun given => ?_)
      fun values after brings => .pure brings
    · refine called.fed (by rw [closed]; decide) ?_
      simp only [Reader.feed, if_pos closed]
      rfl
    · refine .advance_bind (agrees.ensures _ fun _ _ spec => spec _ _ _ first hole ?_)
      refine called.congr ?_
      simp only [Reader.feed, if_neg given]
      rfl
  · cases operator : parser.current.kind.operator? with
    | none =>
      rw [Kind.level_of_not_operator? other operator] at fits
      exact absurd hole.level_pos (Nat.not_lt_of_le fits)
    | some op =>
      have level := Kind.level_of_operator? operator
      have second : parser.Behind opened kept final (.operand (.right op first hole)) := by
        refine brings.fed (fun ended => by rw [ended] at operator; cases operator) ?_
        rw [← Hole.behind_of_level_le first (level ▸ fits)]
        exact Reader.feedOperator_of_operator? operator
      rw [level]
      refine .advance_bind ((agrees.expression (Nat.le_refl _) second).bind fun value after ends => ?_)
      exact .pure (ends.2.congr (Reader.feed_right ends.1))

theorem ensures_expression (agrees : Agrees read) {floor : Nat} (fits : hole.level ≤ floor + 1)
    (brings : parser.Before opened kept final (.operand hole)) :
    Ensures (body read (expression floor)) parser (fun value after =>
      after.peek.kind.level ≤ floor ∧
        after.Behind opened kept final (.operator value hole))
      (Parser.GivesUp opened kept final) :=
  Ensures.bind (agrees.ensures operand fun _ _ spec => spec _ _ _ _ brings)
    fun _ _ brings => agrees.ensures _ fun _ _ spec => spec _ _ _ _ fits brings

theorem ensures_arguments (agrees : Agrees read) {callee : Expr} {earlier : List Expr}
    (brings : parser.Before opened kept final (.operand (.argument callee earlier hole))) :
    Ensures (body read (arguments earlier)) parser (fun values after =>
      after.Behind opened kept final (.operator (.call callee values) hole))
      (Parser.GivesUp opened kept final) := by
  refine (agrees.expression (Nat.le_refl 1) brings).bind fun value after ends => .look_bind ?_
  have settles : Reader.feed ⟨opened, kept, .operator value (.argument callee earlier hole),
      after.errors⟩ after.peek = Reader.settle ⟨opened, kept, .operator value
        (.argument callee earlier hole), after.errors⟩ after.peek value
          (.argument callee earlier hole) := Reader.feed_of_loose ends.1
  refine .ite (fun comma => .advance_bind (.advance_bind ?_)) fun last => ?_
  · refine agrees.ensures _ fun _ _ spec => spec _ _ _ callee hole (ends.2.fed ?_ ?_)
    · rw [comma]
      decide
    · rw [settles, Reader.settle, if_pos comma]
      rfl
  · refine .expect_bind (by decide) ends.2 ?_ fun closed => .pure closed
    rw [settles, Reader.settle, if_neg last]

end Expressions

section Blocks

/-- Behind the first block the reader waits for a possible else; without one it goes on as if the
conditional had been complete. -/
theorem ensures_conditional (agrees : Agrees read) {site : IfSite}
    (brings : parser.Behind opened kept final (.conditionOpen site)) :
    Ensures (body read conditional) parser (fun value after => after.advance.Brings
      (Reader.completeIf ⟨opened, kept, .statement, after.errors⟩ value site) final)
      (Parser.GivesUp opened kept final) := by
  refine .expect_bind (by decide) brings rfl fun inside => .advance_bind ?_
  have fits : site.conditionHole.level ≤ 1 := by cases site <;> exact Nat.le_refl 1
  refine (agrees.expression fits inside).bind fun condition closing ends => ?_
  have closes : Reader.feed ⟨opened, kept, .operator condition site.conditionHole, closing.errors⟩
      closing.peek = Reader.expect ⟨opened, kept, .operator condition site.conditionHole,
        closing.errors⟩ (.punctuation .rightParen) (.consequenceOpen condition site)
          closing.peek := by
    rw [Reader.feed_of_loose ends.1]
    cases site <;> rfl
  refine .expect_bind (by decide) ends.2 closes fun opening => ?_
  refine .expectBlock_bind opening rfl fun entered => ?_
  refine Ensures.bind (agrees.ensures block fun _ _ spec => spec _ _ _ _ entered)
    fun consequence after left => .look_bind ?_
  refine .ite (fun otherwise => .advance_bind ?_) fun alone => .pure (left.congr ?_)
  · have opening : after.advance.Behind opened kept final
        (.alternativeOpen condition consequence site) := by
      refine left.fed (by rw [Parser.current_advance, otherwise]; decide) ?_
      rw [Parser.current_advance]
      simp only [Reader.complete, Reader.await, Reader.feed, if_pos otherwise]
      rfl
    refine .expectBlock_bind opening rfl fun entered => ?_
    exact Ensures.bind (agrees.ensures block fun _ _ spec => spec _ _ _ _ entered)
      fun alternative last left => .pure left
  · rw [Parser.current_advance]
    simp only [Reader.complete, Reader.await, Reader.feed, if_neg alone]
    cases site with
    | statement => rfl
    | operand hole =>
      exact (Reader.feedOperator_await ⟨opened, kept, .statement, after.errors⟩
        (.elseWord condition consequence (.operand hole)) _ hole after.peek).trans
          (Reader.feed_operator _ _ hole after.peek).symm

theorem ensures_block (agrees : Agrees read) {owner : BlockOwner}
    (brings : parser.Behind (⟨owner, kept⟩ :: opened) [] final .statement) :
    Ensures (body read block) parser (fun body after => after.advance.Brings
      (Reader.complete ⟨opened, kept, .statement, after.errors⟩ body owner) final)
      (Parser.GivesUp opened kept final) :=
  .advance_bind (agrees.ensures _ fun _ _ spec => spec _ _ _ _ brings)

/-- A block ends with its brace. At the end of the text the innermost block is given up first. -/
theorem ensures_statements (agrees : Agrees read) {inside : Block} {owner : BlockOwner}
    (brings : parser.Before (⟨owner, kept⟩ :: opened) inside final .statement) :
    Ensures (body read (statements inside)) parser (fun body after => after.advance.Brings
      (Reader.complete ⟨opened, kept, .statement, after.errors⟩ body owner) final)
      (Parser.GivesUp opened kept final) := by
  have round (more : parser.current.kind ≠ .endOfInput)
      (inner : parser.current.kind ≠ .punctuation .rightBrace) :
      Ensures (do
        let kept ← statementInto (read statement) inside
        Parse.advance
        read (statements kept)) parser (fun body after => after.advance.Brings
          (Reader.complete ⟨opened, kept, .statement, after.errors⟩ body owner) final)
          (Parser.GivesUp opened kept final) :=
    have kept := ensures_statementInto agrees more (absurd · inner) brings
    Ensures.bind (kept.weaken fun _ _ => False.elim) fun inside after brings =>
      .advance_bind (agrees.ensures _ fun _ _ spec => spec _ _ _ _ brings)
  refine .look_bind ?_
  cases kind : parser.current.kind with
  | endOfInput =>
    refine .fault ?_
    rw [Parser.advance_of_ended kind]
    refine brings.congr ?_
    simp only [Reader.feed, Reader.feedStatement, kind]
    rw [Reader.finish_cons, kind]
  | punctuation sign =>
    cases sign with
    | rightBrace =>
      refine .pure (brings.fed (by rw [kind]; decide) ?_)
      simp only [Reader.feed, Reader.feedStatement, kind]
      exact Reader.close_eq ..
    | _ => exact round (by simp [kind]) (by simp [kind])
  | _ => exact round (by simp [kind]) (by simp [kind])

/-- The reader keeps the names newest first until the body opens, where they get their order. -/
theorem ensures_function (agrees : Agrees read) {site : FunctionSite}
    (brings : parser.Behind opened kept final (.parametersOpen site)) :
    Ensures (body read function) parser (fun made after => after.advance.Brings
      (Reader.completeFunction ⟨opened, kept, .statement, after.errors⟩ made.1 made.2 site) final)
      (Parser.GivesUp opened kept final) := by
  refine .expect_bind (by decide) brings rfl fun first => ?_
  have names : Ensures (unlessClosed (read (parameters []))) parser.advance (fun names after =>
      after.Behind opened kept final (.bodyOpen names.reverse site))
      (Parser.GivesUp opened kept final) := by
    refine ensures_unlessClosed (fun closed => ?_) fun given => ?_
    · refine first.fed (by rw [closed]; decide) ?_
      simp only [Reader.feed, if_pos closed]
      rfl
    · refine agrees.ensures _ fun _ _ spec => spec _ _ _ site (first.congr ?_)
      simp only [Reader.feed, if_neg given]
      rfl
  refine names.bind fun names after opens => ?_
  refine .expectBlock_bind opens rfl fun entered => ?_
  refine Ensures.bind (agrees.ensures block fun _ _ spec => spec _ _ _ _ entered)
    fun inside last left => .pure ?_
  rwa [List.reverse_reverse] at left

theorem ensures_parameters (agrees : Agrees read) {earlier : List String} {site : FunctionSite}
    (brings : parser.Behind opened kept final (.nextParameter earlier site)) :
    Ensures (body read (parameters earlier)) parser (fun names after =>
      after.Behind opened kept final (.bodyOpen names.reverse site))
      (Parser.GivesUp opened kept final) := by
  refine .expect_bind (by decide) brings rfl fun named => .look_bind ?_
  refine .ite (fun comma => .advance_bind ?_) fun last => ?_
  · refine agrees.ensures _ fun _ _ spec => spec _ _ _ site (named.fed ?_ ?_)
    · rw [comma]
      decide
    · simp only [Reader.feed, if_pos comma]
      rfl
  · refine .expect_bind (by decide) named (if_neg last) fun closed => .pure ?_
    rwa [List.reverse_reverse]

theorem ensures_program (agrees : Agrees read)
    (brings : parser.Before [] kept final .statement) :
    Ensures (body read (program kept)) parser (fun program after =>
      after.current.kind = .endOfInput ∧
        final = ⟨[], program.reverse, .statement, after.errors⟩) fun _ _ => False := by
  refine .look_bind (.ite (fun ended => .pure ⟨ended, ?_⟩) fun more => ?_)
  · unfold Parser.Before Parser.Brings at brings
    rw [Parser.ahead_of_ended ended, List.foldl_cons, List.foldl_nil] at brings
    rw [← brings, List.reverse_reverse]
    simp only [Reader.feed, Reader.feedStatement, ended]
    rfl
  · exact (ensures_statementInto agrees more (fun _ => rfl) brings).bind
      fun kept after brings => .advance_bind
        (agrees.ensures _ fun _ _ spec => spec _ brings)

end Blocks

/-- If the parts of a construct are read as they are fed, then so is the construct. -/
theorem body_agrees (agrees : Agrees read) : Agrees (body read) := by
  intro whole parser ending after ran
  cases whole with
  | program kept => exact fun _ brings => ensures_program agrees brings _ _ ran
  | statement =>
    exact fun _ _ _ more proper outer brings =>
      ensures_statement agrees more proper outer brings _ _ ran
  | expression floor => exact fun _ _ _ _ fits brings => ensures_expression agrees fits brings _ _ ran
  | operators floor first =>
    exact fun _ _ _ _ fits brings => ensures_operators agrees fits brings _ _ ran
  | operand => exact fun _ _ _ _ brings => ensures_operand agrees brings _ _ ran
  | operation first =>
    exact fun _ _ _ _ fits brings => ensures_operation agrees fits brings _ _ ran
  | conditional => exact fun _ _ _ _ brings => ensures_conditional agrees brings _ _ ran
  | block => exact fun _ _ _ _ brings => ensures_block agrees brings _ _ ran
  | statements inside => exact fun _ _ _ _ brings => ensures_statements agrees brings _ _ ran
  | function => exact fun _ _ _ _ brings => ensures_function agrees brings _ _ ran
  | parameters earlier => exact fun _ _ _ _ brings => ensures_parameters agrees brings _ _ ran
  | arguments earlier => exact fun _ _ _ _ _ brings => ensures_arguments agrees brings _ _ ran

/-- By induction on what the guard measures: a part is read only within its whole. -/
theorem run_agrees (whole : Construct) (parser : Parser)
    {ending : Except SyntaxError whole.Result} {after : Parser}
    (ran : whole.run parser = some (ending, after)) : whole.Spec parser ending after := by
  rw [run_eq] at ran
  refine body_agrees ?_ whole parser ending after ran
  intro part there ending after answered
  rw [perform_guarded] at answered
  split at answered
  · exact part.run_agrees there answered
  · cases answered
termination_by (parser.left, whole.rank)
decreasing_by exact Within.lex ‹_›

end Construct

/-- Reading by descent comes to an end with every text. The end token is then the current one,
where no further move leads on; the tokens moved over are all those that are scanned, in their
order; and the statements and errors are those found by feeding each token once.

Wherever a construct is read, that comes to an end as well, and nothing changes if only those
parts may be read that begin with fewer tokens left, or with as many and a lower rank. Whatever a
construct asks for is such a part: each construct inside another, and each round of a loop. So what
comes back to a construct of the same rank, however deep inside, has passed a token. -/
theorem descent_terminates (text : String) :
    (∃ program after passed extra,
      (Construct.program []).run (.start text) = some (.ok program, after) ∧
        after.current.kind = .endOfInput ∧ after.advance = after ∧
        (Parser.start text).Passes passed after ∧
        passed ++ [after.current] = scan text ++ List.replicate extra after.current ∧
        read text = ⟨program, after.errors.reverse⟩) ∧
    (∀ (whole : Construct) (parser : Parser), ∃ ending after,
      (whole.body (whole.guarded parser)).perform parser = some (ending, after) ∧
        (whole.body Construct.parse).perform parser = some (ending, after) ∧
        ∃ passed, parser.Passes passed after) ∧
    (∀ part whole : Construct × Parser, Construct.Asked part whole →
      Construct.Inside part whole) ∧
    ∀ part whole : Construct × Parser, Relation.TransGen Construct.Inside part whole →
      whole.1.rank ≤ part.1.rank → part.2.left < whole.2.left := by
  refine ⟨?_, ?_, fun _ _ => Construct.Asked.inside, fun _ _ => Construct.left_lt_of_nested⟩
  · obtain ⟨ending, after, ran, _, passed, passes⟩ :=
      (Construct.program []).run_returns (.start text)
    have brings : (Parser.start text).Brings .start ((scan text).foldl Reader.feed .start) := by
      rw [Parser.Brings, Parser.ahead_start]
    have spec := (Construct.program []).run_agrees (.start text) ran _ brings
    cases ending with
    | error error => exact spec.elim
    | ok program =>
      obtain ⟨ended, final⟩ := spec
      obtain ⟨extra, same, -⟩ := passes.append_ahead
      rw [Parser.ahead_of_ended ended, Parser.ahead_start] at same
      refine ⟨program, after, passed, extra, ran, ended, Parser.advance_of_ended ended, passes,
        same, ?_⟩
      rw [read, Reading.ofTokens, final]
      simp only [List.reverse_reverse]
  · intro whole parser
    obtain ⟨ending, after, ran, same, moves⟩ := whole.run_returns parser
    rw [Construct.run_eq] at ran
    exact ⟨ending, after, ran, same, moves⟩

/-- The expression in parentheses is asked for by the operand that they make up. -/
theorem descent_terminates_in_parentheses :
    Construct.Asked (.expression 0, (Parser.start "(1)").advance) (.operand, .start "(1)") ∧
    Construct.Asked (.operand, .start "(1)") (.expression 0, .start "(1)") ∧
      (Parser.start "(1)").advance.left < (Parser.start "(1)").left := by
  have opens : (Parser.start "(1)").current.kind = .punctuation .leftParen := by decide +kernel
  have inside : Construct.Asked (.expression 0, (Parser.start "(1)").advance)
      (.operand, .start "(1)") := by
    refine Construct.asked_of_stuck fun read missing => ?_
    unfold Construct.body
    rw [Parse.perform_bind, Parse.perform_look]
    dsimp only
    rw [opens]
    dsimp only
    rw [Parse.perform_bind, Parse.perform_advance]
    dsimp only
    rw [Parse.perform_bind, missing]
  have same : Construct.Asked (.operand, .start "(1)") (.expression 0, .start "(1)") := by
    refine Construct.asked_of_stuck fun read missing => ?_
    unfold Construct.body
    rw [Parse.perform_bind, missing]
  obtain ⟨-, -, within, nested⟩ := descent_terminates "(1)"
  exact ⟨inside, same, nested _ _ (.tail (.single (within _ _ inside)) (within _ _ same))
    (Nat.le_refl _)⟩

end ScopeScript
