import ScopeScript.Proofs.Grammar.Completeness
import ScopeScript.Proofs.Reading.Breaks
import ScopeScript.Proofs.Reading.Context

namespace ScopeScript

/-- The word that completes an operand. -/
def zeroWord : Kind × String := (.integer, "0")

/-- The word that completes a place for a name. -/
def nameWord : Kind × String := (.identifier, "x")

/-- A block with nothing in it, and what follows. -/
def emptyBlock (behind : List (Kind × String)) : List (Kind × String) :=
  Punctuation.leftBrace.word :: Punctuation.rightBrace.word :: behind

/-- Words with which a statement comes to its end behind the operand in a hole. -/
def Hole.completion : Hole → List (Kind × String)
  | .statement | .initializer _ | .result | .exitCode => [Punctuation.semicolon.word]
  | .statementCondition =>
    Punctuation.rightParen.word :: emptyBlock [Punctuation.semicolon.word]
  | .condition outer => Punctuation.rightParen.word :: emptyBlock outer.completion
  | .group outer | .argument _ _ outer => Punctuation.rightParen.word :: outer.completion
  | .negation outer | .right _ _ outer => outer.completion

def IfSite.completion : IfSite → List (Kind × String)
  | .statement => [Punctuation.semicolon.word]
  | .operand hole => hole.completion

def FunctionSite.completion : FunctionSite → List (Kind × String)
  | .statement _ => [Punctuation.semicolon.word]
  | .operand hole => hole.completion

/-- Words with which a statement comes to its end behind a block in it. -/
def BlockOwner.completion : BlockOwner → List (Kind × String)
  | .consequence _ site | .alternative _ _ site => site.completion
  | .body _ site => site.completion

/-- Words with which an unfinished statement comes to its end. -/
def Expectation.completion : Expectation → List (Kind × String)
  | .statement => []
  | .variableName =>
    [nameWord, Punctuation.equal.word, zeroWord, Punctuation.semicolon.word]
  | .equalSign _ => [Punctuation.equal.word, zeroWord, Punctuation.semicolon.word]
  | .functionName =>
    Punctuation.leftParen.word :: Punctuation.rightParen.word ::
      emptyBlock [Punctuation.semicolon.word]
  | .operand hole => zeroWord :: hole.completion
  | .operator _ hole => hole.completion
  | .firstArgument _ hole => Punctuation.rightParen.word :: hole.completion
  | .conditionOpen site =>
    Punctuation.leftParen.word :: zeroWord :: site.conditionHole.completion
  | .consequenceOpen _ site | .alternativeOpen _ _ site => emptyBlock site.completion
  | .elseWord _ _ site => site.completion
  | .parametersOpen site =>
    Punctuation.leftParen.word :: Punctuation.rightParen.word :: emptyBlock site.completion
  | .firstParameter site | .parametersEnd _ site =>
    Punctuation.rightParen.word :: emptyBlock site.completion
  | .nextParameter _ site =>
    nameWord :: Punctuation.rightParen.word :: emptyBlock site.completion
  | .bodyOpen _ site => emptyBlock site.completion

/-- Words with which a text comes to its end: the statement, then every open block and
the statement that it belongs to. -/
def Reader.completion (reader : Reader) : List (Kind × String) :=
  reader.expects.completion ++
    reader.opened.flatMap fun block => Punctuation.rightBrace.word :: block.owner.completion

open Reader

/-- The first word of the completion of a hole ends every expression. -/
theorem Hole.completion_begins (hole : Hole) :
    ∃ sign rest, hole.completion = Punctuation.word sign :: rest ∧
      (sign = .semicolon ∨ sign = .rightParen) := by
  induction hole with
  | negation outer ih => exact ih
  | right op left outer ih => exact ih
  | statement | initializer _ | result | exitCode => exact ⟨_, _, rfl, .inl rfl⟩
  | statementCondition | condition _ _ | group _ _ | argument _ _ _ _ =>
    exact ⟨_, _, rfl, .inr rfl⟩

theorem Token.isSign_of_word {token : Token} {sign : Punctuation}
    (spelled : token.word = sign.word) : token.IsSign sign :=
  congrArg Prod.fst spelled

/-- Tokens with these words end the statement that is being read. No fault is found in
them, and the blocks that are open then are those of `reader`. -/
def Reader.SettlesBy (ahead : Reader) (words : List (Kind × String)) (reader : Reader) : Prop :=
  ∀ tokens : List Token, tokens.map Token.word = words →
    (tokens.foldl feed ahead).opened = reader.opened ∧
      (tokens.foldl feed ahead).errors = reader.errors ∧
      (tokens.foldl feed ahead).expects = .statement

namespace Reader.SettlesBy

variable {ahead next reader : Reader} {words : List (Kind × String)}

theorem cons {word : Kind × String} (rest : next.SettlesBy words reader)
    (feeds : ∀ token : Token, token.word = word → ahead.feed token = next) :
    ahead.SettlesBy (word :: words) reader := by
  intro tokens spelled
  obtain ⟨first, tokens, rfl, is, spelled⟩ := List.map_eq_cons_iff.mp spelled
  rw [List.foldl_cons, feeds first is]
  exact rest tokens spelled

theorem sign {sign : Punctuation} (rest : next.SettlesBy words reader)
    (feeds : ∀ token : Token, token.IsSign sign → ahead.feed token = next) :
    ahead.SettlesBy (sign.word :: words) reader :=
  rest.cons fun token is => feeds token (Token.isSign_of_word is)

/-- A statement that the next semicolon finds over. -/
theorem keep (stmt : Stmt)
    (ends : ∀ mark : Token, mark.IsSign .semicolon →
      ahead.feed mark = (reader.keep stmt).feedStatement mark) :
    ahead.SettlesBy [Punctuation.semicolon.word] reader := by
  intro tokens spelled
  obtain ⟨mark, rest, rfl, is, none⟩ := List.map_eq_cons_iff.mp spelled
  cases List.map_eq_nil_iff.mp none
  have kind := Token.isSign_of_word is
  rw [List.foldl_cons, List.foldl_nil, ends mark kind]
  simp only [feedStatement, kind]
  exact ⟨rfl, rfl, rfl⟩

theorem emptyBlock {base : Reader} {expects : Expectation} (owner : BlockOwner)
    (rest : (base.complete [] owner).SettlesBy words reader)
    (begun : ∀ token, (base.await expects).feed token =
      (base.await expects).expectBlock owner token) :
    (base.await expects).SettlesBy (emptyBlock words) reader := by
  intro tokens spelled
  obtain ⟨opening, tokens, rfl, opens, spelled⟩ := List.map_eq_cons_iff.mp spelled
  obtain ⟨closing, tokens, rfl, closes, spelled⟩ := List.map_eq_cons_iff.mp spelled
  have block : Block.DerivesBraced (opening :: [] ++ [closing]) [] :=
    .mk (Token.isSign_of_word opens) .nil (Token.isSign_of_word closes)
  have read := block.read base expects owner begun
  rw [List.foldl_cons, List.foldl_cons]
  rw [List.cons_append, List.nil_append, List.foldl_cons, List.foldl_cons, List.foldl_nil] at read
  rw [read]
  exact rest tokens spelled

/-- The first word of a completion ends every expression, so that only such words have to
be read alike. -/
theorem ofAlike {hole : Hole} (behind : next.SettlesBy hole.completion reader)
    (alike : ∀ token : Token, token.kind.goesOn = false → ¬ token.IsWord .elseWord →
      ahead.feed token = next.feed token) :
    ahead.SettlesBy hole.completion reader := by
  intro tokens spelled
  have settled := behind tokens spelled
  obtain ⟨sign, words, begins, known⟩ := hole.completion_begins
  rw [begins] at spelled
  obtain ⟨first, tokens, rfl, is, _⟩ := List.map_eq_cons_iff.mp spelled
  have kind := Token.isSign_of_word is
  have stops : first.kind.goesOn = false := by
    rw [kind]
    rcases known with rfl | rfl <;> rfl
  have notElse : ¬ first.IsWord .elseWord := by simp [kind]
  rwa [List.foldl_cons, ← alike first stops notElse, ← List.foldl_cons] at settled

end Reader.SettlesBy

theorem feed_operator_of_sign {reader : Reader} {value : Expr} {hole : Hole} {token : Token}
    {sign : Punctuation} (stops : (Kind.punctuation sign).goesOn = false) (is : token.IsSign sign) :
    (reader.await (.operator value hole)).feed token = reader.settle token value hole := by
  rw [feed_operator, feedOperator_of_goesOn (by rwa [is])]

/-- Behind an operand, its hole is completed. -/
theorem Hole.completes (hole : Hole) (reader : Reader) (value : Expr) :
    (reader.await (.operator value hole)).SettlesBy hole.completion reader := by
  induction hole generalizing value with
  | statement => exact .keep (.expression value) fun mark is => feed_operator_of_sign rfl is
  | initializer name => exact .keep (.var name value) fun mark is => feed_operator_of_sign rfl is
  | result => exact .keep (.returns value) fun mark is => feed_operator_of_sign rfl is
  | exitCode => exact .keep (.exits value) fun mark is => feed_operator_of_sign rfl is
  | statementCondition =>
    have alone := reader.readsAlike_alone value [] .statement
    have behind : (reader.await (.elseWord value [] .statement)).SettlesBy
        [Punctuation.semicolon.word] reader :=
      .keep (.expression (.ifThen value [])) fun mark is => alone mark (by simp [is])
    have block : (reader.await (.consequenceOpen value .statement)).SettlesBy
        (emptyBlock [Punctuation.semicolon.word]) reader :=
      .emptyBlock (.consequence value .statement) behind fun _ => rfl
    refine block.sign fun token is => ?_
    rw [feed_operator_of_sign rfl is, settle, expect, if_pos is]
  | condition outer ih =>
    have alone := reader.readsAlike_alone value [] (.operand outer)
    have behind : (reader.await (.elseWord value [] (.operand outer))).SettlesBy
        outer.completion reader :=
      .ofAlike (ih (.ifThen value [])) fun token _ notElse => alone token notElse
    have block : (reader.await (.consequenceOpen value (.operand outer))).SettlesBy
        (emptyBlock outer.completion) reader :=
      .emptyBlock (.consequence value (.operand outer)) behind fun _ => rfl
    refine block.sign fun token is => ?_
    rw [feed_operator_of_sign rfl is, settle, expect, if_pos is]
  | group outer ih =>
    refine .sign (ih value) fun token is => ?_
    rw [feed_operator_of_sign rfl is, settle, expect, if_pos is]
  | argument callee earlier outer ih =>
    refine .sign (ih (.call callee (value :: earlier).reverse)) fun token is => ?_
    rw [feed_operator_of_sign rfl is, settle, if_neg (by simp [is]), expect, if_pos is]
  | negation outer ih =>
    change SettlesBy _ outer.completion reader
    refine .ofAlike (ih value.negation) fun token stops _ => ?_
    rw [feed_operator, feed_operator, feedOperator_of_goesOn stops, feedOperator_of_goesOn stops,
      settle]
  | right op left outer ih =>
    change SettlesBy _ outer.completion reader
    refine .ofAlike (ih (.binary op left value)) fun token stops _ => ?_
    rw [feed_operator, feed_operator, feedOperator_of_goesOn stops, feedOperator_of_goesOn stops,
      settle]

theorem IfSite.completes (site : IfSite) (reader : Reader) (value : Expr) :
    (reader.completeIf value site).SettlesBy site.completion reader := by
  cases site with
  | statement => exact .keep (.expression value) fun mark _ => feed_of_ready rfl mark
  | operand hole => exact hole.completes reader value

theorem IfSite.completes_alone (site : IfSite) (reader : Reader) (condition : Expr)
    (consequence : Block) :
    (reader.await (.elseWord condition consequence site)).SettlesBy site.completion reader := by
  have alone := reader.readsAlike_alone condition consequence site
  have behind := site.completes reader (.ifThen condition consequence)
  cases site with
  | statement =>
    change SettlesBy _ Hole.statement.completion reader
    exact .ofAlike behind fun token _ notElse => alone token notElse
  | operand hole => exact .ofAlike behind fun token _ notElse => alone token notElse

theorem FunctionSite.completes (site : FunctionSite) (reader : Reader) (parameters : List String)
    (body : Block) :
    (reader.completeFunction parameters body site).SettlesBy site.completion reader := by
  cases site with
  | statement name =>
    exact .keep (.function name parameters body) fun mark _ => feed_of_ready rfl mark
  | operand hole => exact hole.completes reader (.function parameters body)

/-- Behind a block, the statement that it belongs to is completed. -/
theorem BlockOwner.completes (owner : BlockOwner) (reader : Reader) (body : Block) :
    (reader.complete body owner).SettlesBy owner.completion reader := by
  cases owner with
  | consequence condition site => exact site.completes_alone reader condition body
  | alternative condition consequence site =>
    exact site.completes reader (.ifElse condition consequence body)
  | body parameters site => exact site.completes reader parameters body

theorem Hole.completes_operand (hole : Hole) (reader : Reader) :
    (reader.await (.operand hole)).SettlesBy (zeroWord :: hole.completion) reader := by
  refine (hole.completes reader (.integer 0)).cons fun token is => ?_
  obtain ⟨kind, lexeme⟩ := Prod.mk.inj is
  have value : integer? "0" = some 0 := by decide
  simp only [feed, await, feedOperand, kind, lexeme, value]

theorem BlockOwner.completes_block {expects : Expectation} (owner : BlockOwner) (reader : Reader)
    (begun : ∀ token, (reader.await expects).feed token =
      (reader.await expects).expectBlock owner token) :
    (reader.await expects).SettlesBy (emptyBlock owner.completion) reader :=
  .emptyBlock owner (owner.completes reader []) begun

theorem FunctionSite.completes_parameters (site : FunctionSite) (earlier : List String)
    (reader : Reader) :
    (reader.await (.parametersEnd earlier site)).SettlesBy
      (Punctuation.rightParen.word :: emptyBlock site.completion) reader := by
  have body := (BlockOwner.body earlier.reverse site).completes_block reader
    (fun token => (rfl : (reader.await (.bodyOpen earlier site)).feed token = _))
  refine body.sign fun token is => ?_
  simp [feed, await, expect, is]

theorem FunctionSite.completes_noParameters (site : FunctionSite) (reader : Reader) :
    (reader.await (.firstParameter site)).SettlesBy
      (Punctuation.rightParen.word :: emptyBlock site.completion) reader := by
  have body := (BlockOwner.body [] site).completes_block reader
    (fun token => (rfl : (reader.await (.bodyOpen [] site)).feed token = _))
  refine body.sign fun token is => ?_
  simp [feed, await, is]

/-- Whatever is expected, a statement that was begun is completed. -/
theorem Expectation.completes (expects : Expectation) (reader : Reader) :
    (reader.await expects).SettlesBy expects.completion reader := by
  have initialized (name : String) : (reader.await (.equalSign name)).SettlesBy
      (Expectation.equalSign name).completion reader := by
    refine ((Hole.initializer name).completes_operand reader).sign fun token is => ?_
    simp only [feed, await, expect, if_pos is]
  cases expects with
  | statement =>
    intro tokens spelled
    cases List.map_eq_nil_iff.mp spelled
    exact ⟨rfl, rfl, rfl⟩
  | variableName =>
    refine (initialized "x").cons fun token is => ?_
    obtain ⟨kind, lexeme⟩ := Prod.mk.inj is
    simp only [feed, await, expect, if_pos kind, lexeme]
  | equalSign name => exact initialized name
  | functionName =>
    refine ((FunctionSite.operand .statement).completes_noParameters reader).sign fun token is => ?_
    simp [feed, await, expect, is]
  | operand hole => exact hole.completes_operand reader
  | operator value hole => exact hole.completes reader value
  | firstArgument callee hole =>
    refine (hole.completes reader (.call callee [])).sign fun token is => ?_
    simp only [feed, await, if_pos is]
  | conditionOpen site =>
    refine (site.conditionHole.completes_operand reader).sign fun token is => ?_
    simp only [feed, await, expect, if_pos is]
  | consequenceOpen condition site =>
    exact (BlockOwner.consequence condition site).completes_block reader fun _ => rfl
  | elseWord condition consequence site => exact site.completes_alone reader condition consequence
  | alternativeOpen condition consequence site =>
    exact (BlockOwner.alternative condition consequence site).completes_block reader fun _ => rfl
  | parametersOpen site =>
    refine (site.completes_noParameters reader).sign fun token is => ?_
    simp only [feed, await, expect, if_pos is]
  | firstParameter site => exact site.completes_noParameters reader
  | nextParameter earlier site =>
    refine (site.completes_parameters ("x" :: earlier) reader).cons fun token is => ?_
    obtain ⟨kind, lexeme⟩ := Prod.mk.inj is
    simp only [feed, await, expect, if_pos kind, lexeme]
  | parametersEnd earlier site => exact site.completes_parameters earlier reader
  | bodyOpen earlier site =>
    exact (BlockOwner.body earlier.reverse site).completes_block reader fun _ => rfl

/-- Where a statement may begin, every open block is closed and what it belongs to is
completed. -/
theorem Reader.completes_opened (blocks : List OpenBlock) {reader : Reader}
    (opened : reader.opened = blocks) (ready : reader.expects = .statement) {tokens : List Token}
    (spelled : tokens.map Token.word =
      blocks.flatMap fun block => Punctuation.rightBrace.word :: block.owner.completion) :
    (tokens.foldl feed reader).opened = [] ∧
      (tokens.foldl feed reader).errors = reader.errors ∧
      (tokens.foldl feed reader).expects = .statement := by
  induction blocks generalizing reader tokens with
  | nil =>
    cases List.map_eq_nil_iff.mp spelled
    exact ⟨opened, rfl, ready⟩
  | cons block outer ih =>
    obtain ⟨closing, tokens, rfl, is, spelled⟩ := List.map_eq_cons_iff.mp spelled
    obtain ⟨behind, others, rfl, completed, spelled⟩ := List.map_eq_append_iff.mp spelled
    have closed : reader.feed closing = ({ reader with opened := outer, kept := block.around } :
        Reader).complete reader.kept.reverse block.owner := by
      rw [feed_of_ready ready, ← close_eq]
      simp only [feedStatement, Token.isSign_of_word is, opened]
    obtain ⟨left, same, done⟩ := block.owner.completes _ reader.kept.reverse behind completed
    rw [← closed] at left same done
    rw [List.foldl_cons, List.foldl_append]
    obtain ⟨none, clean, last⟩ := ih left done spelled
    exact ⟨none, clean.trans same, last⟩

/-- The completion of what was read has no fault and leaves nothing open. -/
theorem Reader.completes (reader : Reader) {tokens : List Token}
    (spelled : tokens.map Token.word = reader.completion) :
    (tokens.foldl feed reader).opened = [] ∧
      (tokens.foldl feed reader).errors = reader.errors ∧
      (tokens.foldl feed reader).expects = .statement := by
  obtain ⟨first, others, rfl, statement, blocks⟩ := List.map_eq_append_iff.mp spelled
  obtain ⟨opened, same, ready⟩ := reader.expects.completes reader first statement
  rw [List.foldl_append]
  obtain ⟨none, clean, last⟩ := completes_opened reader.opened opened ready blocks
  exact ⟨none, clean.trans same, last⟩

@[simp] theorem fits_zeroWord : zeroWord.1.Fits zeroWord.2.toList :=
  .integer (List.cons_ne_nil _ _) (List.forall_mem_singleton.mpr rfl)

@[simp] theorem fits_nameWord : nameWord.1.Fits nameWord.2.toList := by
  have known : Kind.ofWord (String.ofList ['x']) = .identifier := by decide
  have fits : (Kind.ofWord (String.ofList ['x'])).Fits ['x'] :=
    .word (List.cons_ne_nil _ _) (List.forall_mem_singleton.mpr (by decide))
  rw [known] at fits
  exact fits

@[simp] theorem fitting_emptyBlock {behind : List (Kind × String)} :
    Fitting (emptyBlock behind) ↔ Fitting behind := by
  simp [emptyBlock]

@[simp] theorem Hole.fitting_completion (hole : Hole) : Fitting hole.completion := by
  induction hole <;> simp_all [completion]

@[simp] theorem IfSite.fitting_completion (site : IfSite) : Fitting site.completion := by
  cases site <;> simp [completion]

@[simp] theorem FunctionSite.fitting_completion (site : FunctionSite) : Fitting site.completion := by
  cases site <;> simp [completion]

@[simp] theorem BlockOwner.fitting_completion (owner : BlockOwner) : Fitting owner.completion := by
  cases owner <;> simp [completion]

@[simp] theorem Expectation.fitting_completion (expects : Expectation) :
    Fitting expects.completion := by
  cases expects <;> simp [completion]

/-- Every completion can stand in a text. -/
theorem Reader.fitting_completion (reader : Reader) : Fitting reader.completion := by
  rw [completion, fitting_append]
  refine ⟨reader.expects.fitting_completion, fun word member => ?_⟩
  obtain ⟨block, _, member⟩ := List.mem_flatMap.mp member
  have owner : Fitting (Punctuation.rightBrace.word :: block.owner.completion) := by simp
  exact owner word member

end ScopeScript
