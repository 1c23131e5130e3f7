import ScopeScript.Proofs.Grammar.Reach
import ScopeScript.Proofs.Grammar.Step
import ScopeScript.Proofs.Reading.Errors

namespace ScopeScript

open Reader

theorem Reader.kind_of_expect {reader : Reader} {kind : Kind} {next : Expectation} {token : Token}
    (clean : (reader.expect kind next token).errors = []) : token.kind = kind := by
  unfold expect at clean
  split at clean
  · assumption
  · exact absurd clean (refuse_errors_ne_nil reader kind token)

theorem Reader.sign_of_expectBlock {reader : Reader} {owner : BlockOwner} {token : Token}
    (clean : (reader.expectBlock owner token).errors = []) : token.IsSign .leftBrace := by
  unfold expectBlock at clean
  split at clean
  · assumption
  · exact absurd clean (refuse_errors_ne_nil reader (.punctuation .leftBrace) token)

/-- What a reader without errors has behind one more token: more of a program, or,
behind the end of the text, all of it. -/
inductive Fed (tokens : List Token) (token : Token) (reader : Reader) : Prop
  | inside : token.kind ≠ .endOfInput → ReaderReach (tokens ++ [token]) reader →
      Fed tokens token reader
  | ended : token.kind = .endOfInput → Block.Derives tokens reader.kept.reverse →
      Fed tokens token reader

section

variable {reader : Reader} {before current : List Token} {bare : Bool} {token : Token}

/-- The unfinished statement goes on with the token. -/
theorem Fed.await {tokens : List Token} {expects : Expectation}
    (stack : StackReach reader.opened reader.kept before (current ++ [token]).head?)
    (plain : Plain bare (current ++ [token])) (more : token.kind ≠ .endOfInput)
    (reach : ExpectationReach bare tokens expects) (same : tokens = current ++ [token]) :
    Fed (before ++ current) token (reader.await expects) := by
  subst same
  exact .inside more ⟨bare, before, current ++ [token], List.append_assoc .., stack, reach, plain⟩

theorem Fed.expect {tokens : List Token} {kind : Kind} {next : Expectation}
    (stack : StackReach reader.opened reader.kept before (current ++ [token]).head?)
    (plain : Plain bare (current ++ [token])) (more : kind ≠ .endOfInput)
    (reach : token.kind = kind → ExpectationReach bare tokens next)
    (same : tokens = current ++ [token]) (clean : (reader.expect kind next token).errors = []) :
    Fed (before ++ current) token (reader.expect kind next token) := by
  have is := kind_of_expect clean
  rw [Reader.expect, if_pos is]
  exact .await stack plain (is ▸ more) (reach is) same

/-- The token opens a block, whose list is the innermost one now. -/
theorem Fed.expectBlock {tokens : List Token} {owner : BlockOwner}
    (stack : StackReach reader.opened reader.kept before (current ++ [token]).head?)
    (plain : Plain bare (current ++ [token]))
    (reach : token.IsSign .leftBrace → OwnerReach bare tokens owner)
    (same : tokens = current ++ [token]) (clean : (reader.expectBlock owner token).errors = []) :
    Fed (before ++ current) token (reader.expectBlock owner token) := by
  have is := sign_of_expectBlock clean
  subst same
  rw [Reader.expectBlock, if_pos is]
  exact .inside (by simp [is]) ⟨false, before ++ (current ++ [token]) ++ [], [], by simp,
    .inner stack (reach is) plain .start, .statement, by simp [Plain]⟩

/-- A statement that ends at a brace ends with the token. -/
theorem Fed.keep {tokens : List Token} {stmt : Stmt}
    (stack : StackReach reader.opened reader.kept before (current ++ [token]).head?)
    (more : token.kind ≠ .endOfInput) (derived : Stmt.Derives .brace tokens stmt)
    (same : tokens = current ++ [token]) : Fed (before ++ current) token (reader.keep stmt) := by
  subst same
  have kept : StackReach reader.opened (stmt :: reader.kept) (before ++ (current ++ [token])) none :=
    stack.keep derived (by simp)
  exact .inside more ⟨false, _, [], by simp, kept, .statement, by simp [Plain]⟩

theorem Fed.feedOperand {hole : Hole}
    (stack : StackReach reader.opened reader.kept before (current ++ [token]).head?)
    (plain : Plain bare (current ++ [token])) (reach : HoleReach bare current hole)
    (clean : (reader.feedOperand hole token).errors = []) :
    Fed (before ++ current) token (reader.feedOperand hole token) := by
  have some? : current ++ [token] ≠ [] := by simp
  revert clean
  unfold Reader.feedOperand
  split
  case h_1 is =>
    split
    · rename_i value found
      intro _
      exact .await stack plain (by simp [is])
        (.operator reach (.integer is (integer?_eq_some_iff.mp found))) rfl
    · simp
  case h_2 is =>
    intro _
    exact .await stack plain (by simp [is]) (.operator reach (.name is)) rfl
  case h_3 is =>
    intro _
    exact .await stack plain (by simp [is]) (.operator reach (.truth is)) rfl
  case h_4 is =>
    intro _
    exact .await stack plain (by simp [is]) (.operator reach (.falsity is)) rfl
  case h_5 is =>
    intro _
    exact .await stack plain (by simp [is]) (.operand (.group reach is) some?) rfl
  case h_6 is =>
    intro _
    exact .await stack plain (by simp [is]) (.operand (.negation reach is) some?) rfl
  case h_7 is =>
    intro _
    exact .await stack plain (by simp [is]) (.conditionOpen (.operand reach) is) rfl
  case h_8 is =>
    intro _
    exact .await stack plain (by simp [is]) (.parametersOpen (.operand reach is)) rfl
  case h_10 =>
    intro clean
    have kept := suffix_finish (reader.blame (.noOperand token.kind) token) token
    rw [clean, List.suffix_nil] at kept
    exact absurd kept (by simp)
  all_goals simp

theorem Fed.completeIf {lead tokens : List Token} {site : IfSite} {value : Expr}
    (stack : StackReach reader.opened reader.kept before (current ++ [token]).head?)
    (plain : Plain bare (current ++ [token])) (more : token.kind ≠ .endOfInput)
    (reach : IfReach bare lead site) (derived : Expr.DerivesIf tokens value)
    (same : lead ++ tokens = current ++ [token]) :
    Fed (before ++ current) token (reader.completeIf value site) := by
  cases reach with
  | statement => exact .keep stack more (.branch derived) same
  | operand reach => exact .await stack plain more (.operator reach (.branch derived)) same

theorem Fed.completeFunction {lead tokens : List Token} {site : FunctionSite}
    {parameters : List String} {body : Block}
    (stack : StackReach reader.opened reader.kept before (current ++ [token]).head?)
    (plain : Plain bare (current ++ [token])) (more : token.kind ≠ .endOfInput)
    (reach : FunctionReach bare lead site) (derived : Block.DerivesFunction tokens parameters body)
    (same : lead ++ tokens = current ++ [token]) :
    Fed (before ++ current) token (reader.completeFunction parameters body site) := by
  cases reach with
  | statement word name => exact .keep stack more (.function word name derived) same
  | operand reach word =>
    exact .await stack plain more (.operator reach (.function word derived))
      (by simpa only [List.append_assoc, List.singleton_append] using same)

/-- The brace that closes a block gives it to its owner, and the statement around it
goes on or is over. -/
theorem Fed.close {block : OpenBlock} {outer : List OpenBlock}
    (stack : StackReach (block :: outer) reader.kept before (some token))
    (is : token.IsSign .rightBrace) : Fed before token (reader.close block outer) := by
  have more : token.kind ≠ .endOfInput := by simp [is]
  cases stack with
  | @inner _ around _ owner bare before lead tokens _ stack reach plain list =>
    have braced {opening : Token} (opens : opening.IsSign .leftBrace) :
        Block.DerivesBraced (opening :: tokens ++ [token]) reader.kept.reverse :=
      .mk opens list.derives is
    have first : (lead ++ tokens ++ [token]).head? = lead.head? := by
      cases reach <;> simp
    have inside : Plain bare (lead ++ tokens ++ [token]) := by rwa [Plain, first]
    rw [← first] at stack
    rw [List.append_assoc]
    cases reach with
    | consequence reach condition opens =>
      exact .await stack inside more (.elseWord reach condition (braced opens)) (by simp)
    | alternative reach condition consequence word opens =>
      exact .completeIf stack inside more reach
        (.withElse condition consequence word (braced opens)) (by simp)
    | body reach parameters opens =>
      exact .completeFunction stack inside more reach (.mk parameters (braced opens)) (by simp)

/-- A statement begins with the token, or the open list ends with it. -/
theorem Fed.feedStatement (stack : StackReach reader.opened reader.kept before (some token))
    (clean : (reader.feedStatement token).errors = []) :
    Fed before token (reader.feedStatement token) := by
  have begun {bare : Bool} {expects : Expectation} (plain : Plain bare [token])
      (more : token.kind ≠ .endOfInput) (reach : ExpectationReach bare [token] expects) :
      Fed before token (reader.await expects) := by
    have fed : Fed (before ++ []) token (reader.await expects) := .await stack plain more reach rfl
    rwa [List.append_nil] at fed
  have plain {bare : Bool} (notIf : ¬ token.IsWord .ifWord) : Plain bare [token] := by
    intro _ first begins
    cases Option.mem_some.mp begins
    exact notIf
  revert clean
  unfold Reader.feedStatement
  split
  case h_1 is =>
    intro _
    exact .inside (by simp [is])
      ⟨false, before ++ [token], [], by simp, stack.semicolon is, .statement, by simp [Plain]⟩
  case h_2 is =>
    intro _
    exact begun (plain (by simp [is])) (by simp [is]) (.variableName is)
  case h_3 is =>
    intro _
    exact begun (by simp [Plain]) (by simp [is]) (.conditionOpen .statement is)
  case h_4 is =>
    intro _
    exact begun (plain (by simp [is])) (by simp [is]) (.functionName is)
  case h_5 is =>
    intro _
    exact begun (plain (by simp [is])) (by simp [is]) (.operand (.result is) (by simp))
  case h_6 is =>
    intro _
    exact begun (plain (by simp [is])) (by simp [is]) (.operand (.exitCode is) (by simp))
  case h_7 is =>
    split
    · simp
    · rename_i block outer known
      intro _
      exact .close (known ▸ stack) is
  case h_8 is =>
    intro clean
    obtain ⟨opened, kept, expects, errors⟩ := reader
    cases opened with
    | nil =>
      cases stack with
      | outermost list => exact .ended is list.derives
    | cons block outer =>
      have missing := congrArg List.length clean
      simp only [finish, List.length_append, List.length_replicate, List.length_cons,
        List.length_nil] at missing
      omega
  case h_9 =>
    rename_i notIf _ _ _ _ _
    intro clean
    have fed : Fed (before ++ []) token (reader.feedOperand .statement token) :=
      .feedOperand stack (plain notIf) .statement clean
    rwa [List.append_nil] at fed

/-- A statement is over with a token that does not go on with it, and the token is
read behind it. -/
theorem Fed.over {ending : Ending} {stmt : Stmt}
    (stack : StackReach reader.opened reader.kept before (current ++ [token]).head?)
    (derived : Stmt.Derives ending current stmt)
    (apart : ending = .expression → token.kind.goesOn = false)
    (clean : ((reader.keep stmt).feedStatement token).errors = []) :
    Fed (before ++ current) token ((reader.keep stmt).feedStatement token) := by
  have first : (current ++ [token]).head? = current.head? := by
    obtain ⟨first, rest, rfl, _⟩ := derived.begins
    rfl
  rw [first] at stack
  have kept : StackReach reader.opened (stmt :: reader.kept) (before ++ current) (some token) :=
    stack.keep derived fun inExpression => ⟨token, rfl, apart inExpression⟩
  exact .feedStatement kept clean

/-- A token that ends an expression is read by what the expression stands in. -/
theorem Fed.settle {tokens : List Token} {level : Nat} {value : Expr} {hole : Hole}
    (stack : StackReach reader.opened reader.kept before (current ++ tokens ++ [token]).head?)
    (plain : Plain bare (current ++ tokens ++ [token])) (reach : HoleReach bare current hole)
    (derived : Expr.Derives level tokens value) (fits : hole.level ≤ level)
    (stops : token.kind.goesOn = false) (clean : (reader.settle token value hole).errors = []) :
    Fed (before ++ (current ++ tokens)) token (reader.settle token value hole) := by
  induction hole generalizing current tokens level value with
  | right op left outer ih =>
    cases reach with
    | @right _ lead first _ _ _ mark _ reach below left_derived is known =>
      have whole := Expr.Derives.binary left_derived is known (derived.looser fits)
      have regroup : lead ++ first ++ [mark] ++ tokens = lead ++ (first ++ mark :: tokens) := by simp
      rw [regroup] at stack plain ⊢
      exact ih stack plain reach whole below clean
  | negation outer ih =>
    cases reach with
    | @negation _ lead _ mark reach is =>
      have whole := Expr.Derives.negation is (derived.looser fits)
      have regroup : lead ++ [mark] ++ tokens = lead ++ mark :: tokens := by simp
      rw [regroup] at stack plain ⊢
      exact ih stack plain reach whole outer.level_le_negationLevel clean
  | group outer =>
    cases reach with
    | group reach opens =>
      exact .expect stack plain (by decide)
        (fun closes => .operator reach (.group opens (derived.looser fits) closes)) (by simp) clean
  | argument callee earlier outer =>
    obtain ⟨lead, called, opening, list, reach, first, opens, listed, same⟩ :=
      reach.arguments (derived.looser fits)
    rw [same] at stack plain ⊢
    unfold Reader.settle at clean ⊢
    by_cases separates : token.kind = .punctuation .comma
    · rw [if_pos separates]
      have next := HoleReach.nextArgument reach first opens listed separates
      rw [List.reverse_reverse] at next
      exact .await stack plain (by simp [separates]) (.operand next (by simp)) rfl
    · rw [if_neg separates] at clean ⊢
      exact .expect stack plain (by decide)
        (fun closes => .operator reach (.call first (.some opens listed closes))) (by simp) clean
  | statementCondition =>
    cases reach with
    | statementCondition word opens =>
      exact .expect stack plain (by decide)
        (fun closes => .consequenceOpen .statement (.mk word opens (derived.looser fits) closes))
        (by simp) clean
  | condition outer =>
    cases reach with
    | condition reach word opens =>
      exact .expect stack plain (by decide)
        (fun closes =>
          .consequenceOpen (.operand reach) (.mk word opens (derived.looser fits) closes))
        (by simp) clean
  | statement =>
    cases reach with
    | statement =>
      obtain ⟨first, rest, rfl, _⟩ := derived.begins
      exact .over stack (.expression (derived.looser fits) (plain rfl)) (fun _ => stops) clean
  | initializer name =>
    cases reach with
    | initializer word name mark =>
      exact .over stack (.var word name mark (derived.looser fits)) (fun _ => stops) clean
  | result =>
    cases reach with
    | result word =>
      exact .over stack (.returns word (derived.looser fits)) (fun _ => stops) clean
  | exitCode =>
    cases reach with
    | exitCode word =>
      exact .over stack (.exits word (derived.looser fits)) (fun _ => stops) clean

/-- A token behind an operand goes on with the expression, or ends it. -/
theorem Fed.feedOperator {tokens : List Token} {value : Expr} {hole : Hole}
    (stack : StackReach reader.opened reader.kept before (current ++ tokens ++ [token]).head?)
    (plain : Plain bare (current ++ tokens ++ [token])) (reach : HoleReach bare current hole)
    (derived : Expr.Derives Operator.callLevel tokens value)
    (clean : (reader.feedOperator value hole token).errors = []) :
    Fed (before ++ (current ++ tokens)) token (reader.feedOperator value hole token) := by
  have fits : hole.level ≤ Operator.callLevel := Nat.le_succ_of_le hole.level_le_negationLevel
  revert clean
  unfold Reader.feedOperator
  split
  case h_1 is =>
    intro _
    exact .await stack plain (by simp [is]) (.firstArgument reach derived is) rfl
  case h_2 sign notOpening is =>
    split
    · rename_i op known
      intro _
      have le : op.level ≤ Operator.callLevel :=
        Nat.le_succ_of_le (Nat.le_of_lt op.level_lt_negationLevel)
      exact .await stack plain (by simp [is])
        (.operand (reach.behind derived fits le is known) (by simp)) rfl
    · rename_i unknown
      have stops : token.kind.goesOn = false := by
        rw [is, Kind.goesOn.eq_2 sign notOpening, unknown]
        rfl
      exact .settle stack plain reach derived fits stops
  case h_3 notOpening noSign =>
    have stops : token.kind.goesOn = false := by
      cases known : token.kind with
      | punctuation sign => exact absurd known (noSign sign)
      | _ => rfl
    exact .settle stack plain reach derived fits stops

/-- One token keeps what is known of a reader without errors. -/
theorem Fed.feed {tokens : List Token} (reached : ReaderReach tokens reader)
    (clean : (reader.feed token).errors = []) : Fed tokens token (reader.feed token) := by
  obtain ⟨bare, before, current, rfl, stack, reach, plain⟩ := reached
  by_cases ready : reader.expects = .statement
  · rw [ready] at reach
    cases reach
    rw [feed_of_ready ready, List.append_nil] at *
    exact .feedStatement (stack.ahead (some token)) clean
  have first : (current ++ [token]).head? = current.head? := by
    cases current with
    | nil => exact absurd rfl (reach.nonempty ready)
    | cons => rfl
  have inside : Plain bare (current ++ [token]) := by rwa [Plain, first]
  rw [← first] at stack
  revert clean
  unfold Reader.feed
  generalize known : reader.expects = expects at reach ready
  cases reach with
  | statement => exact absurd rfl ready
  | variableName word =>
    exact .expect stack inside (by decide) (fun name => .equalSign word name) rfl
  | equalSign word name =>
    exact .expect stack inside (by decide)
      (fun mark => .operand (.initializer word name mark) (by simp)) rfl
  | functionName word =>
    dsimp only
    split
    · rename_i name
      intro _
      have named := ExpectationReach.parametersOpen (.statement word name)
      exact .await stack (by simp [Plain]) (by simp [name]) named rfl
    · exact .expect stack inside (by decide)
        (fun opens => .firstParameter (.operand .statement word) opens) rfl
  | operand reach _ => exact .feedOperand stack inside reach
  | operator reach derived => exact .feedOperator stack inside reach derived
  | firstArgument reach derived opens =>
    dsimp only
    split
    · rename_i closes
      intro _
      exact .await stack inside (by simp [closes])
        (.operator reach (.call derived (.none opens closes))) (by simp)
    · exact .feedOperand stack inside (.firstArgument reach derived opens)
  | conditionOpen reach word =>
    cases reach with
    | statement =>
      exact .expect stack inside (by decide)
        (fun opens => .operand (.statementCondition word opens) (by simp)) rfl
    | operand reach =>
      exact .expect stack inside (by decide)
        (fun opens => .operand (.condition reach word opens) (by simp)) (by simp)
  | consequenceOpen reach condition =>
    exact .expectBlock stack inside (fun opens => .consequence reach condition opens) rfl
  | @elseWord _ lead head block _ _ _ reach condition consequence =>
    dsimp only
    split
    · rename_i word
      intro _
      exact .await stack inside (by simp [word])
        (.alternativeOpen reach condition consequence word) rfl
    · have derived := Expr.DerivesIf.alone condition consequence
      cases reach with
      | statement =>
        intro clean
        exact .over stack (.branch derived) (by simp) clean
      | operand reach =>
        intro clean
        rw [List.append_assoc lead] at stack inside ⊢
        exact .feedOperator stack inside reach (.branch derived) clean
  | alternativeOpen reach condition consequence word =>
    exact .expectBlock stack inside
      (fun opens => .alternative reach condition consequence word opens) (by simp)
  | parametersOpen reach =>
    exact .expect stack inside (by decide) (fun opens => .firstParameter reach opens) rfl
  | firstParameter reach opens =>
    dsimp only
    split
    · rename_i closes
      intro _
      have bodied := ExpectationReach.bodyOpen reach (.none opens closes)
      exact .await stack inside (by simp [closes]) bodied (by simp)
    · exact .expect stack inside (by decide)
        (fun name => .parametersEnd reach opens (.one name)) (by simp)
  | parametersEnd reach opens names =>
    dsimp only
    split
    · rename_i separates
      intro _
      exact .await stack inside (by simp [separates])
        (.nextParameter reach opens names separates) rfl
    · exact .expect stack inside (by decide)
        (fun closes => .bodyOpen reach (.some opens names closes)) (by simp)
  | @nextParameter _ lead list _ opening comma names reach opens listed separates =>
    dsimp only
    rw [show token.lexeme :: names.reverse = (names ++ [token.lexeme]).reverse by simp]
    exact .expect stack inside (by decide)
      (fun name => .parametersEnd reach opens (.more listed separates name)) (by simp)
  | @bodyOpen _ lead list _ names reach listed =>
    dsimp only
    rw [List.reverse_reverse]
    exact .expectBlock stack inside (fun opens => .body reach listed opens) rfl

end

end ScopeScript
