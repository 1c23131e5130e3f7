import ScopeScript.Proofs.Grammar.Recognition

namespace ScopeScript

/-- Kinds that are awaited somewhere as such, not as the beginning of an operand or of
a statement. -/
def Kind.awaited : Kind → Bool
  | .identifier => true
  | .keyword .elseWord => true
  | .punctuation .semicolon => false
  | .punctuation .rightBrace => false
  | .punctuation _ => true
  | _ => false

theorem Kind.goesOn_of_awaited {kind : Kind} (other : kind.awaited = false) :
    kind.goesOn = false := by
  cases kind with
  | punctuation sign =>
    revert other
    cases sign <;> decide
  | _ => rfl

namespace Reader

/-- The token is read where an operand must begin or where a statement may begin. -/
inductive Arrives (token : Token) : Reader → Prop
  | operand (before : Reader) (hole : Hole) : Arrives token (before.feedOperand hole token)
  | statement (before : Reader) : Arrives token (before.feedStatement token)

section Arrives

variable {token : Token} (other : token.kind.awaited = false) (reader : Reader)

include other

theorem Arrives.ite {kind : Kind} {apart after : Reader} (arrives : Arrives token after)
    (awaited : kind.awaited = true) :
    Arrives token (if token.kind = kind then apart else after) := by
  rwa [if_neg]
  rintro rfl
  rw [awaited] at other
  exact Bool.false_ne_true other.symm

theorem arrives_expect {kind : Kind} (awaited : kind.awaited = true) (next : Expectation) :
    Arrives token (reader.expect kind next token) :=
  Arrives.ite other (.statement _) awaited

theorem arrives_expectBlock (owner : BlockOwner) :
    Arrives token (reader.expectBlock owner token) :=
  Arrives.ite other (.statement _) rfl

theorem arrives_settle (value : Expr) (hole : Hole) :
    Arrives token (reader.settle token value hole) := by
  induction hole generalizing value with
  | right op left outer ih => exact ih _
  | negation outer ih => exact ih _
  | argument callee earlier outer => exact .ite other (arrives_expect other reader rfl _) rfl
  | group outer => exact arrives_expect other reader rfl _
  | statementCondition => exact arrives_expect other reader rfl _
  | condition outer => exact arrives_expect other reader rfl _
  | statement => exact .statement _
  | initializer name => exact .statement _
  | result => exact .statement _
  | exitCode => exact .statement _

theorem arrives_feedOperator (value : Expr) (hole : Hole) :
    Arrives token (reader.feedOperator value hole token) := by
  rw [feedOperator_of_goesOn (Kind.goesOn_of_awaited other)]
  exact arrives_settle other reader value hole

/-- What is not awaited begins something, or is dropped where something should begin. Nothing awaits
an integer, so digits arrive wherever they stand. -/
theorem arrives_feed : Arrives token (reader.feed token) := by
  unfold feed
  cases reader.expects with
  | statement => exact .statement reader
  | operand hole => exact .operand reader hole
  | operator value hole => exact arrives_feedOperator other reader value hole
  | functionName => exact .ite other (arrives_expect other reader rfl _) rfl
  | firstArgument callee hole => exact .ite other (.operand reader _) rfl
  | firstParameter site => exact .ite other (arrives_expect other reader rfl _) rfl
  | parametersEnd earlier site => exact .ite other (arrives_expect other reader rfl _) rfl
  | elseWord condition consequence site =>
    cases site with
    | statement => exact .ite other (.statement _) rfl
    | operand hole => exact .ite other (arrives_feedOperator other reader _ hole) rfl
  | consequenceOpen condition site => exact arrives_expectBlock other reader _
  | alternativeOpen condition consequence site => exact arrives_expectBlock other reader _
  | bodyOpen earlier site => exact arrives_expectBlock other reader _
  | variableName => exact arrives_expect other reader rfl _
  | equalSign name => exact arrives_expect other reader rfl _
  | conditionOpen site => exact arrives_expect other reader rfl _
  | parametersOpen site => exact arrives_expect other reader rfl _
  | nextParameter earlier site => exact arrives_expect other reader rfl _

end Arrives

end Reader

/-- The error about digits that stand for no 64-bit integer. -/
def Token.tooLarge (token : Token) : SyntaxError := ⟨.tooLarge token.lexeme, token.position⟩

/-- Wherever such digits arrive they are reported. -/
theorem Reader.Arrives.tooLarge_mem {token : Token} {after : Reader}
    (arrives : Arrives token after) (is : token.kind = .integer)
    (large : integer? token.lexeme = none) : token.tooLarge ∈ after.errors := by
  cases arrives with
  | operand before hole =>
    simp only [feedOperand, is, large, blame_errors, Token.tooLarge, List.mem_cons_self]
  | statement before =>
    simp only [feedStatement, feedOperand, is, large, blame_errors, Token.tooLarge,
      List.mem_cons_self]

/-- A text with digits beyond the 64-bit integers in it is no program, and they are
among its errors. -/
theorem parse_of_tooLarge {text : String} {token : Token} (member : token ∈ scan text)
    (is : token.kind = .integer) (large : Reader.integer? token.lexeme = none) :
    ∃ errors, parse text = .error errors ∧ token.tooLarge ∈ errors := by
  obtain ⟨before, after, scanned⟩ := List.append_of_mem member
  have other : token.kind.awaited = false := by
    rw [is]
    rfl
  have reported : token.tooLarge ∈ ((scan text).foldl Reader.feed Reader.start).errors := by
    rw [scanned, List.foldl_append, List.foldl_cons]
    exact (Reader.suffix_foldl _ after).subset ((Reader.arrives_feed other _).tooLarge_mem is large)
  have listed := List.mem_reverse.mpr reported
  exact ⟨_, (parse_eq_error_iff text _).mpr ⟨List.ne_nil_of_mem listed, rfl⟩, listed⟩

end ScopeScript
