import ScopeScript.Proofs.Grammar.Step

namespace ScopeScript

namespace Reader

/-- What comes next is read in the same way, unless it is an `else`. -/
def ReadsAlike (reader other : Reader) : Prop :=
  ∀ token : Token, ¬ token.IsWord .elseWord → reader.feed token = other.feed token

theorem ReadsAlike.refl (reader : Reader) : reader.ReadsAlike reader := fun _ _ => rfl

theorem ReadsAlike.foldl {reader other : Reader} {first : Token} (alike : reader.ReadsAlike other)
    (notElse : ¬ first.IsWord .elseWord) (rest : List Token) :
    (first :: rest).foldl feed reader = (first :: rest).foldl feed other := by
  rw [List.foldl_cons, List.foldl_cons, alike first notElse]

/-- Without an `else`, an `if` is over behind its first block. -/
theorem readsAlike_alone (reader : Reader) (condition : Expr) (consequence : Block)
    (site : IfSite) :
    (reader.await (.elseWord condition consequence site)).ReadsAlike
      (reader.completeIf (.ifThen condition consequence) site) := by
  intro token notElse
  cases site with
  | statement => simp only [await, feed, if_neg notElse, completeIf, keep]
  | operand hole =>
    rw [completeIf, feed_operator,
      ← feedOperator_await reader (.elseWord condition consequence (.operand hole))]
    simp only [feed, await, if_neg notElse]

end Reader

open Reader

theorem NamesDerive.read {tokens : List Token} {names : List String}
    (derived : NamesDerive tokens names) (reader : Reader) (site : FunctionSite) :
    tokens.foldl feed (reader.await (.firstParameter site)) =
      reader.await (.parametersEnd names.reverse site) := by
  induction derived with
  | @one name word =>
    have notClosing : name.kind ≠ .punctuation .rightParen := by rw [word]; decide
    simp only [List.foldl_cons, List.foldl_nil, feed, await, if_neg notClosing, expect, if_pos word,
      List.reverse_singleton]
  | @more tokens names comma name _ separates word ih =>
    have notClosing : name.kind ≠ .punctuation .rightParen := by rw [word]; decide
    rw [List.foldl_append, ih]
    simp only [List.foldl_cons, List.foldl_nil, feed, await, if_pos separates, expect, if_pos word,
      List.reverse_append, List.reverse_singleton, List.singleton_append]

theorem ParametersDerive.read {tokens : List Token} {names : List String}
    (derived : ParametersDerive tokens names) (reader : Reader) (site : FunctionSite) :
    tokens.foldl feed (reader.await (.parametersOpen site)) =
      reader.await (.bodyOpen names.reverse site) := by
  cases derived with
  | none opening closing =>
    simp only [List.foldl_cons, List.foldl_nil, feed, await, expect, if_pos opening, if_pos closing,
      List.reverse_nil]
  | @some opening closing tokens names opens derived closes =>
    have first : (reader.await (.parametersOpen site)).feed opening =
        reader.await (.firstParameter site) := by
      simp only [feed, await, expect, if_pos opens]
    have notComma : closing.kind ≠ .punctuation .comma := by rw [closes]; decide
    rw [List.cons_append, List.foldl_cons, first, List.foldl_append, derived.read]
    simp only [List.foldl_cons, List.foldl_nil, feed, await, if_neg notComma, expect, if_pos closes]

theorem Expr.DeriveArguments.begins {tokens : List Token} {values : List Expr}
    (derived : Expr.DeriveArguments tokens values) :
    ∃ first rest, tokens = first :: rest ∧ first.IsSign .leftParen := by
  cases derived with
  | none opening _ => exact ⟨_, _, rfl, opening⟩
  | some opening _ _ => exact ⟨_, _, rfl, opening⟩

theorem ParametersDerive.begins {tokens : List Token} {names : List String}
    (derived : ParametersDerive tokens names) :
    ∃ first rest, tokens = first :: rest ∧ first.IsSign .leftParen := by
  cases derived with
  | none opening _ => exact ⟨_, _, rfl, opening⟩
  | some opening _ _ => exact ⟨_, _, rfl, opening⟩

/-- A token that begins an operand and no other statement is read alike in both places. -/
theorem Reader.foldl_of_begins {reader : Reader} {first : Token} {rest : List Token}
    (ready : reader.expects = .statement)
    (begins : first.kind = .integer ∨ first.IsSign .minus ∨ first.kind = .identifier ∨
      first.IsWord .trueWord ∨ first.IsWord .falseWord ∨ first.IsSign .leftParen) :
    (first :: rest).foldl feed reader =
      (first :: rest).foldl feed (reader.await (.operand .statement)) := by
  have operand : reader.feedStatement first = reader.feedOperand .statement first := by
    rcases begins with is | is | is | is | is | is <;> simp only [feedStatement, is]
  rw [List.foldl_cons, List.foldl_cons, feed_of_ready ready, operand, feed_operand]

/-- The word that begins a function leads to its name or, past it, to its parameters. -/
theorem Block.DerivesFunction.read_ready {tokens : List Token} {parameters : List String}
    {body : Block} {word : Token} {reader : Reader} (ready : reader.expects = .statement)
    (is : word.IsWord .functionWord) (derived : Block.DerivesFunction tokens parameters body) :
    (word :: tokens).foldl feed reader =
      (word :: tokens).foldl feed (reader.await (.operand .statement)) := by
  cases derived with
  | mk list body =>
    obtain ⟨opening, rest, rfl, opens⟩ := list.begins
    have notName : opening.kind ≠ .identifier := by rw [opens]; decide
    have ahead : (reader.await .functionName).feed opening =
        (reader.await (.parametersOpen (.operand .statement))).feed opening := by
      simp only [feed, await, if_neg notName, expect, if_pos opens]
    simp only [List.cons_append, List.foldl_cons, feed_of_ready ready, feedStatement, is] at ahead ⊢
    rw [ahead]
    simp only [feed, feedOperand, await, is]

/-- An expression may begin where a statement may, unless it begins with `if`. -/
theorem Expr.Derives.read_ready {level : Nat} {tokens : List Token} {value : Expr}
    {reader : Reader} (ready : reader.expects = .statement) :
    Expr.Derives level tokens value → (∀ first ∈ tokens.head?, ¬ first.IsWord .ifWord) →
      tokens.foldl feed reader = tokens.foldl feed (reader.await (.operand .statement))
  | .tighter derived, plain => derived.read_ready ready plain
  | .binary left _ _ _, plain => by
    have read := left.read_ready ready
    obtain ⟨first, rest, rfl, _⟩ := left.begins
    rw [List.foldl_append, List.foldl_append, read (by simpa using plain)]
  | .call callee _, plain => by
    have read := callee.read_ready ready
    obtain ⟨first, rest, rfl, _⟩ := callee.begins
    rw [List.foldl_append, List.foldl_append, read (by simpa using plain)]
  | .branch derived, plain => by
    obtain ⟨first, rest, rfl, word⟩ := derived.begins
    exact absurd word (plain first rfl)
  | .function word derived, _ => derived.read_ready ready word
  | .integer is _, _ => foldl_of_begins ready (.inl is)
  | .negation is _, _ => foldl_of_begins ready (.inr (.inl is))
  | .name is, _ => foldl_of_begins ready (.inr (.inr (.inl is)))
  | .truth is, _ => foldl_of_begins ready (.inr (.inr (.inr (.inl is))))
  | .falsity is, _ => foldl_of_begins ready (.inr (.inr (.inr (.inr (.inl is)))))
  | .group is _ _, _ => foldl_of_begins ready (.inr (.inr (.inr (.inr (.inr is)))))

mutual

/-- What is an expression by the grammar is read as that expression: the operators
that are still pending behind its tokens gather it in the hole where it began. -/
theorem Expr.Derives.read {level : Nat} {tokens : List Token} {value : Expr} :
    Expr.Derives level tokens value → ∀ (reader : Reader) (hole : Hole), hole.level ≤ level →
      ∃ last inner, Gathers level last inner value hole ∧
        (tokens.foldl feed (reader.await (.operand hole))).ReadsAlike
          (reader.await (.operator last inner))
  | .tighter derived, reader, hole, fits => by
    obtain ⟨last, inner, gathers, alike⟩ := derived.read reader hole (Nat.le_succ_of_le fits)
    exact ⟨last, inner, gathers.looser (Nat.le_succ _), alike⟩
  | @Expr.Derives.binary op sign before after mark first second left is known right,
      reader, hole, fits => by
    obtain ⟨last, inner, gathers, alike⟩ := left.read reader hole fits
    obtain ⟨next, within, gathered, alikeNext⟩ :=
      right.read reader (.right op first hole) (Nat.le_refl _)
    have notElse : ¬ mark.IsWord .elseWord := by simp [is]
    have step : (reader.await (.operator last inner)).feed mark =
        reader.await (.operand (.right op first hole)) := by
      rw [feed_operator, feedOperator_of_ofSign? is known, gathers.behind (Nat.le_refl _),
        Hole.behind_of_level_le first fits]
    refine ⟨next, within, .right (Nat.le_refl _) gathered, ?_⟩
    rw [List.foldl_append, List.foldl_cons, alike mark notElse, step]
    exact alikeNext
  | @Expr.Derives.negation mark tokens operand is derived, reader, hole, fits => by
    obtain ⟨last, inner, gathers, alike⟩ := derived.read reader (.negation hole) (Nat.le_refl _)
    have step : (reader.await (.operand hole)).feed mark =
        reader.await (.operand (.negation hole)) := by
      simp only [feed_operand, feedOperand, is]
    refine ⟨last, inner, .negation (Nat.le_refl _) gathers, ?_⟩
    rw [List.foldl_cons, step]
    exact alike
  | @Expr.Derives.call before list callee values derived arguments, reader, hole, fits => by
    obtain ⟨last, inner, gathers, alike⟩ := derived.read reader hole fits
    obtain ⟨rfl, rfl⟩ := gathers.of_callLevel
    have read := arguments.read reader callee hole
    obtain ⟨opening, rest, rfl, opens⟩ := arguments.begins
    refine ⟨_, _, .done, ?_⟩
    rw [List.foldl_append, alike.foldl (by simp [opens]), read]
    exact .refl _
  | .integer is same, reader, hole, fits => by
    refine ⟨_, _, .done, ?_⟩
    simp only [List.foldl_cons, List.foldl_nil, feed_operand, feedOperand, is,
      integer?_eq_some_iff.mpr same]
    exact .refl _
  | .name is, reader, hole, fits | .truth is, reader, hole, fits
  | .falsity is, reader, hole, fits => by
    refine ⟨_, _, .done, ?_⟩
    simp only [List.foldl_cons, List.foldl_nil, feed_operand, feedOperand, is]
    exact .refl _
  | @Expr.Derives.group opening closing tokens value opens derived closes, reader, hole, fits => by
    obtain ⟨last, inner, gathers, alike⟩ := derived.read reader (.group hole) (Nat.le_refl _)
    have notElse : ¬ closing.IsWord .elseWord := by simp [closes]
    have opened : (reader.await (.operand hole)).feed opening =
        reader.await (.operand (.group hole)) := by
      simp only [feed_operand, feedOperand, opens]
    have closed : (reader.await (.operator last inner)).feed closing =
        reader.await (.operator value hole) := by
      rw [feed_of_gathers gathers (by rw [closes]; rfl)]
      simp only [settle, expect, if_pos closes]
    refine ⟨_, _, .done, ?_⟩
    rw [List.cons_append, List.foldl_cons, opened, List.foldl_append, List.foldl_cons,
      alike closing notElse, closed]
    exact .refl _
  | .branch derived, reader, hole, fits => by
    refine ⟨_, _, .done, derived.read _ reader (.operand hole) ?_⟩
    intro word is
    simp only [feed_operand, feedOperand, is]
  | @Expr.Derives.function word tokens parameters body is derived, reader, hole, fits => by
    have step : (reader.await (.operand hole)).feed word =
        reader.await (.parametersOpen (.operand hole)) := by
      simp only [feed_operand, feedOperand, is]
    refine ⟨_, _, .done, ?_⟩
    rw [List.foldl_cons, step, derived.read]
    exact .refl _

theorem Expr.DeriveList.read {tokens : List Token} {values : List Expr} :
    Expr.DeriveList tokens values → ∀ (reader : Reader) (callee : Expr) (hole : Hole),
      ∃ earlier final last inner, values = earlier ++ [final] ∧
        Gathers 1 last inner final (.argument callee earlier.reverse hole) ∧
        (tokens.foldl feed (reader.await (.operand (.argument callee [] hole)))).ReadsAlike
          (reader.await (.operator last inner))
  | .one derived, reader, callee, hole => by
    obtain ⟨last, inner, gathers, alike⟩ :=
      derived.read reader (.argument callee [] hole) (Nat.le_refl _)
    exact ⟨[], _, last, inner, rfl, gathers, alike⟩
  | @Expr.DeriveList.more before after comma values value list separates derived,
      reader, callee, hole => by
    obtain ⟨earlier, final, last, inner, rfl, gathers, alike⟩ := list.read reader callee hole
    obtain ⟨next, within, gathered, alikeNext⟩ :=
      derived.read reader (.argument callee (earlier ++ [final]).reverse hole) (Nat.le_refl _)
    have notElse : ¬ comma.IsWord .elseWord := by simp [separates]
    have step : (reader.await (.operator last inner)).feed comma =
        reader.await (.operand (.argument callee (earlier ++ [final]).reverse hole)) := by
      rw [feed_of_gathers gathers (by rw [separates]; rfl)]
      simp only [settle, if_pos separates, List.reverse_append, List.reverse_singleton,
        List.singleton_append]
    refine ⟨_, value, next, within, rfl, gathered, ?_⟩
    rw [List.foldl_append, List.foldl_cons, alike comma notElse, step]
    exact alikeNext

theorem Expr.DeriveArguments.read {tokens : List Token} {values : List Expr} :
    Expr.DeriveArguments tokens values → ∀ (reader : Reader) (callee : Expr) (hole : Hole),
      tokens.foldl feed (reader.await (.operator callee hole)) =
        reader.await (.operator (.call callee values) hole)
  | .none opens closes, reader, callee, hole => by
    simp only [List.foldl_cons, List.foldl_nil, feed_operator, feedOperator_of_leftParen opens]
    simp only [feed, await, if_pos closes]
  | @Expr.DeriveArguments.some opening closing tokens values opens derived closes,
      reader, callee, hole => by
    obtain ⟨earlier, final, last, inner, rfl, gathers, alike⟩ := derived.read reader callee hole
    have notElse : ¬ closing.IsWord .elseWord := by simp [closes]
    have notComma : closing.kind ≠ .punctuation .comma := by rw [closes]; decide
    have opened : (reader.await (.operator callee hole)).feed opening =
        reader.await (.firstArgument callee hole) := by
      rw [feed_operator, feedOperator_of_leftParen opens]
    have inside : tokens.foldl feed (reader.await (.firstArgument callee hole)) =
        tokens.foldl feed (reader.await (.operand (.argument callee [] hole))) := by
      obtain ⟨first, rest, rfl, leads⟩ := derived.begins
      have notClosing : first.kind ≠ .punctuation .rightParen := by
        intro is
        rw [is] at leads
        exact absurd leads (by decide)
      rw [List.foldl_cons, List.foldl_cons, feed_operand,
        ← feedOperand_await reader (.firstArgument callee hole)]
      simp only [feed, await, if_neg notClosing]
    have closed : (reader.await (.operator last inner)).feed closing =
        reader.await (.operator (.call callee (earlier ++ [final])) hole) := by
      rw [feed_of_gathers gathers (by rw [closes]; rfl)]
      simp only [settle, if_neg notComma, expect, if_pos closes, List.reverse_cons,
        List.reverse_reverse]
    rw [List.cons_append, List.foldl_cons, opened, List.foldl_append, inside, List.foldl_cons,
      alike closing notElse, closed]
    rfl

theorem Expr.DerivesCondition.read {tokens : List Token} {condition : Expr} :
    Expr.DerivesCondition tokens condition → ∀ (start reader : Reader) (site : IfSite),
      (∀ word : Token, word.IsWord .ifWord →
        start.feed word = reader.await (.conditionOpen site)) →
      tokens.foldl feed start = reader.await (.consequenceOpen condition site)
  | @Expr.DerivesCondition.mk word opening closing tokens condition is opens derived closes,
      start, reader, site, begun => by
    obtain ⟨last, inner, gathers, alike⟩ :=
      derived.read reader site.conditionHole (by cases site <;> exact Nat.le_refl _)
    have notElse : ¬ closing.IsWord .elseWord := by simp [closes]
    have opened : (reader.await (.conditionOpen site)).feed opening =
        reader.await (.operand site.conditionHole) := by
      simp only [feed, expect, await, if_pos opens]
    have closed : (reader.await (.operator last inner)).feed closing =
        reader.await (.consequenceOpen condition site) := by
      rw [feed_of_gathers gathers (by rw [closes]; rfl)]
      cases site <;> simp only [IfSite.conditionHole, settle, expect, if_pos closes]
    rw [List.cons_append, List.cons_append, List.foldl_cons, begun word is, List.foldl_cons,
      opened, List.foldl_append, List.foldl_cons, alike closing notElse, closed]
    rfl

/-- An `if` is read as a whole wherever its first word is taken for one. Without an
`else`, the token behind it settles that there is none. -/
theorem Expr.DerivesIf.read {tokens : List Token} {value : Expr} :
    Expr.DerivesIf tokens value → ∀ (start reader : Reader) (site : IfSite),
      (∀ word : Token, word.IsWord .ifWord →
        start.feed word = reader.await (.conditionOpen site)) →
      (tokens.foldl feed start).ReadsAlike (reader.completeIf value site)
  | @Expr.DerivesIf.alone before block condition consequence derived braced,
      start, reader, site, begun => by
    have inside := braced.read reader (.consequenceOpen condition site)
      (.consequence condition site) fun _ => rfl
    rw [List.foldl_append, derived.read start reader site begun, inside]
    exact reader.readsAlike_alone condition consequence site
  | @Expr.DerivesIf.withElse before first second word condition consequence alternative
      derived braced isElse other, start, reader, site, begun => by
    have inside := braced.read reader (.consequenceOpen condition site)
      (.consequence condition site) fun _ => rfl
    have insideOther := other.read reader (.alternativeOpen condition consequence site)
      (.alternative condition consequence site) fun _ => rfl
    have step : (reader.complete consequence (.consequence condition site)).feed word =
        reader.await (.alternativeOpen condition consequence site) := by
      simp only [complete, feed, await, if_pos isElse]
    rw [List.foldl_append, List.foldl_append, derived.read start reader site begun, inside,
      List.foldl_cons, step, insideOther]
    exact .refl _

theorem Block.DerivesFunction.read {tokens : List Token} {parameters : List String}
    {body : Block} :
    Block.DerivesFunction tokens parameters body → ∀ (reader : Reader) (site : FunctionSite),
      tokens.foldl feed (reader.await (.parametersOpen site)) =
        reader.completeFunction parameters body site
  | @Block.DerivesFunction.mk before block parameters body list braced, reader, site => by
    have inside := braced.read reader (.bodyOpen parameters.reverse site) (.body parameters site)
      fun token => by simp only [feed, await, List.reverse_reverse]
    rw [List.foldl_append, list.read, inside]
    rfl

/-- A block is read into a list of its own and handed to its owner. -/
theorem Block.DerivesBraced.read {tokens : List Token} {body : Block} :
    Block.DerivesBraced tokens body →
      ∀ (reader : Reader) (expects : Expectation) (owner : BlockOwner),
      (∀ token, (reader.await expects).feed token =
        (reader.await expects).expectBlock owner token) →
      tokens.foldl feed (reader.await expects) = reader.complete body owner
  | @Block.DerivesBraced.mk opening closing tokens body opens derived closes,
      reader, expects, owner, begun => by
    have opened : (reader.await expects).feed opening = reader.enter owner := by
      rw [begun, expectBlock, if_pos opens]
      rfl
    have inside := derived.read (reader.enter owner) rfl closing (by simp [closes])
      (by rw [closes]; rfl)
    have closed : ((reader.enter owner).keepAll body).feed closing = reader.complete body owner := by
      rw [feed_of_ready rfl, ← close_enter]
      simp only [feedStatement, closes, keepAll, enter]
    rw [List.cons_append, List.foldl_cons, opened, List.foldl_append, List.foldl_cons,
      List.foldl_nil, inside, closed]

/-- What is a list of statements is read into the open list. Only the token behind
it settles that the last statement is over. -/
theorem Block.Derives.read {tokens : List Token} {body : Block} :
    Block.Derives tokens body → ∀ reader : Reader, reader.expects = .statement →
      ∀ token : Token, ¬ token.IsWord .elseWord → token.kind.goesOn = false →
        (tokens.foldl feed reader).feed token = (reader.keepAll body).feed token
  | .nil, reader, ready, token, notElse, stops => by
    rw [List.foldl_nil, feed_of_ready ready, feed_of_ready rfl, keepAll, ← ready]
    rfl
  | @Block.Derives.semicolon mark rest body is derived, reader, ready, token, notElse, stops => by
    rw [List.foldl_cons, feed_semicolon ready is, derived.read reader ready token notElse stops]
  | @Block.Derives.ended ending before rest mark stmt body first is derived,
      reader, ready, token, notElse, stops => by
    have closed := first.read reader ready mark (by simp [is]) fun _ => by rw [is]; rfl
    rw [List.foldl_append, List.foldl_cons, closed, feed_semicolon rfl is,
      derived.read (reader.keep stmt) rfl token notElse stops, keepAll_keep]
  | @Block.Derives.unended ending before rest stmt body first apart derived,
      reader, ready, token, notElse, stops => by
    have later := derived.read (reader.keep stmt) rfl token notElse stops
    have settled : (rest.foldl feed (before.foldl feed reader)).feed token =
        (rest.foldl feed (reader.keep stmt)).feed token := by
      have leads := derived.begins
      cases rest with
      | nil => exact first.read reader ready token notElse fun _ => stops
      | cons next rest =>
        have nextNotElse : ¬ next.IsWord .elseWord := by
          intro is
          have nothing := leads next rfl
          rw [is] at nothing
          exact absurd nothing (by decide)
        rw [List.foldl_cons, List.foldl_cons,
          first.read reader ready next nextNotElse fun inExpression => apart inExpression next rfl]
    rw [List.foldl_append, settled, later, keepAll_keep]

theorem Stmt.Derives.read {ending : Ending} {tokens : List Token} {stmt : Stmt} :
    Stmt.Derives ending tokens stmt → ∀ reader : Reader, reader.expects = .statement →
      ∀ token : Token, ¬ token.IsWord .elseWord →
        (ending = .expression → token.kind.goesOn = false) →
        (tokens.foldl feed reader).feed token = (reader.keep stmt).feed token
  | @Stmt.Derives.var word name mark tokens value isVar isName isEqual derived,
      reader, ready, token, notElse, stops => by
    obtain ⟨last, inner, gathers, alike⟩ :=
      derived.read reader (.initializer name.lexeme) (Nat.le_refl _)
    have begun : [word, name, mark].foldl feed reader =
        reader.await (.operand (.initializer name.lexeme)) := by
      simp only [List.foldl_cons, List.foldl_nil, feed_of_ready ready, feedStatement, isVar]
      simp only [feed, await, expect, if_pos isName, if_pos isEqual]
    change (tokens.foldl feed ([word, name, mark].foldl feed reader)).feed token = _
    rw [begun, alike token notElse, feed_of_gathers gathers (stops rfl)]
    rfl
  | @Stmt.Derives.function word name tokens parameters body isFunction isName derived,
      reader, ready, token, notElse, stops => by
    have begun : [word, name].foldl feed reader =
        reader.await (.parametersOpen (.statement name.lexeme)) := by
      simp only [List.foldl_cons, List.foldl_nil, feed_of_ready ready, feedStatement, isFunction]
      simp only [feed, await, if_pos isName]
    change (tokens.foldl feed ([word, name].foldl feed reader)).feed token = _
    rw [begun, derived.read]
    rfl
  | @Stmt.Derives.returns word tokens value is derived, reader, ready, token, notElse, stops => by
    obtain ⟨last, inner, gathers, alike⟩ := derived.read reader .result (Nat.le_refl _)
    have begun : reader.feed word = reader.await (.operand .result) := by
      simp only [feed_of_ready ready, feedStatement, is]
    rw [List.foldl_cons, begun, alike token notElse, feed_of_gathers gathers (stops rfl)]
    rfl
  | @Stmt.Derives.exits word tokens code is derived, reader, ready, token, notElse, stops => by
    obtain ⟨last, inner, gathers, alike⟩ := derived.read reader .exitCode (Nat.le_refl _)
    have begun : reader.feed word = reader.await (.operand .exitCode) := by
      simp only [feed_of_ready ready, feedStatement, is]
    rw [List.foldl_cons, begun, alike token notElse, feed_of_gathers gathers (stops rfl)]
    rfl
  | .branch derived, reader, ready, token, notElse, stops => by
    have read := derived.read reader reader .statement fun word is => by
      simp only [feed_of_ready ready, feedStatement, is]
    exact read token notElse
  | .expression derived plain, reader, ready, token, notElse, stops => by
    obtain ⟨last, inner, gathers, alike⟩ := derived.read reader .statement (Nat.le_refl _)
    rw [derived.read_ready ready plain, alike token notElse, feed_of_gathers gathers (stops rfl)]
    rfl

end

end ScopeScript
