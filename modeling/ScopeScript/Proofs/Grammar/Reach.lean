import ScopeScript.Proofs.Grammar.Gathering

namespace ScopeScript

/-- The tokens of an unfinished statement that lead to a hole in it. They are `bare`
if the statement is an expression with nothing before it. -/
inductive HoleReach : Bool → List Token → Hole → Prop
  | statement : HoleReach true [] .statement
  | initializer {word name mark : Token} :
      word.IsWord .varWord → name.kind = .identifier → mark.IsSign .equal →
      HoleReach false [word, name, mark] (.initializer name.lexeme)
  | result {word : Token} : word.IsWord .returnWord → HoleReach false [word] .result
  | exitCode {word : Token} : word.IsWord .exitWord → HoleReach false [word] .exitCode
  | statementCondition {word opening : Token} :
      word.IsWord .ifWord → opening.IsSign .leftParen →
      HoleReach false [word, opening] .statementCondition
  | condition {bare : Bool} {tokens : List Token} {outer : Hole} {word opening : Token} :
      HoleReach bare tokens outer → word.IsWord .ifWord → opening.IsSign .leftParen →
      HoleReach bare (tokens ++ [word, opening]) (.condition outer)
  | group {bare : Bool} {tokens : List Token} {outer : Hole} {opening : Token} :
      HoleReach bare tokens outer → opening.IsSign .leftParen →
      HoleReach bare (tokens ++ [opening]) (.group outer)
  | negation {bare : Bool} {tokens : List Token} {outer : Hole} {mark : Token} :
      HoleReach bare tokens outer → mark.IsSign .minus →
      HoleReach bare (tokens ++ [mark]) (.negation outer)
  | right {bare : Bool} {before tokens : List Token} {outer : Hole} {op : Operator}
      {sign : Punctuation} {mark : Token} {left : Expr} :
      HoleReach bare before outer → outer.level ≤ op.level → Expr.Derives op.level tokens left →
      mark.IsSign sign → Operator.ofSign? sign = some op →
      HoleReach bare (before ++ tokens ++ [mark]) (.right op left outer)
  | firstArgument {bare : Bool} {before tokens : List Token} {outer : Hole} {opening : Token}
      {callee : Expr} :
      HoleReach bare before outer → Expr.Derives Operator.callLevel tokens callee →
      opening.IsSign .leftParen →
      HoleReach bare (before ++ tokens ++ [opening]) (.argument callee [] outer)
  | nextArgument {bare : Bool} {before tokens list : List Token} {outer : Hole}
      {opening comma : Token} {callee : Expr} {values : List Expr} :
      HoleReach bare before outer → Expr.Derives Operator.callLevel tokens callee →
      opening.IsSign .leftParen → Expr.DeriveList list values → comma.IsSign .comma →
      HoleReach bare (before ++ tokens ++ opening :: list ++ [comma])
        (.argument callee values.reverse outer)

/-- The tokens of an unfinished statement before an `if` in it. -/
inductive IfReach : Bool → List Token → IfSite → Prop
  | statement : IfReach false [] .statement
  | operand {bare : Bool} {tokens : List Token} {hole : Hole} :
      HoleReach bare tokens hole → IfReach bare tokens (.operand hole)

/-- The tokens of an unfinished statement up to the name or the keyword of a function. -/
inductive FunctionReach : Bool → List Token → FunctionSite → Prop
  | statement {word name : Token} : word.IsWord .functionWord → name.kind = .identifier →
      FunctionReach false [word, name] (.statement name.lexeme)
  | operand {bare : Bool} {tokens : List Token} {hole : Hole} {word : Token} :
      HoleReach bare tokens hole → word.IsWord .functionWord →
      FunctionReach bare (tokens ++ [word]) (.operand hole)

/-- The tokens of an unfinished statement behind which something is expected. -/
inductive ExpectationReach : Bool → List Token → Expectation → Prop
  | statement : ExpectationReach false [] .statement
  | variableName {word : Token} : word.IsWord .varWord →
      ExpectationReach false [word] .variableName
  | equalSign {word name : Token} : word.IsWord .varWord → name.kind = .identifier →
      ExpectationReach false [word, name] (.equalSign name.lexeme)
  | functionName {word : Token} : word.IsWord .functionWord →
      ExpectationReach true [word] .functionName
  | operand {bare : Bool} {tokens : List Token} {hole : Hole} :
      HoleReach bare tokens hole → tokens ≠ [] → ExpectationReach bare tokens (.operand hole)
  | operator {bare : Bool} {before tokens : List Token} {hole : Hole} {value : Expr} :
      HoleReach bare before hole → Expr.Derives Operator.callLevel tokens value →
      ExpectationReach bare (before ++ tokens) (.operator value hole)
  | firstArgument {bare : Bool} {before tokens : List Token} {hole : Hole} {opening : Token}
      {callee : Expr} :
      HoleReach bare before hole → Expr.Derives Operator.callLevel tokens callee →
      opening.IsSign .leftParen →
      ExpectationReach bare (before ++ tokens ++ [opening]) (.firstArgument callee hole)
  | conditionOpen {bare : Bool} {before : List Token} {site : IfSite} {word : Token} :
      IfReach bare before site → word.IsWord .ifWord →
      ExpectationReach bare (before ++ [word]) (.conditionOpen site)
  | consequenceOpen {bare : Bool} {before head : List Token} {site : IfSite} {condition : Expr} :
      IfReach bare before site → Expr.DerivesCondition head condition →
      ExpectationReach bare (before ++ head) (.consequenceOpen condition site)
  | elseWord {bare : Bool} {before head block : List Token} {site : IfSite} {condition : Expr}
      {consequence : Block} :
      IfReach bare before site → Expr.DerivesCondition head condition →
      Block.DerivesBraced block consequence →
      ExpectationReach bare (before ++ head ++ block) (.elseWord condition consequence site)
  | alternativeOpen {bare : Bool} {before head block : List Token} {site : IfSite}
      {condition : Expr} {consequence : Block} {word : Token} :
      IfReach bare before site → Expr.DerivesCondition head condition →
      Block.DerivesBraced block consequence → word.IsWord .elseWord →
      ExpectationReach bare (before ++ head ++ block ++ [word])
        (.alternativeOpen condition consequence site)
  | parametersOpen {bare : Bool} {before : List Token} {site : FunctionSite} :
      FunctionReach bare before site → ExpectationReach bare before (.parametersOpen site)
  | firstParameter {bare : Bool} {before : List Token} {site : FunctionSite} {opening : Token} :
      FunctionReach bare before site → opening.IsSign .leftParen →
      ExpectationReach bare (before ++ [opening]) (.firstParameter site)
  | parametersEnd {bare : Bool} {before list : List Token} {site : FunctionSite}
      {opening : Token} {names : List String} :
      FunctionReach bare before site → opening.IsSign .leftParen → NamesDerive list names →
      ExpectationReach bare (before ++ opening :: list) (.parametersEnd names.reverse site)
  | nextParameter {bare : Bool} {before list : List Token} {site : FunctionSite}
      {opening comma : Token} {names : List String} :
      FunctionReach bare before site → opening.IsSign .leftParen → NamesDerive list names →
      comma.IsSign .comma →
      ExpectationReach bare (before ++ opening :: list ++ [comma])
        (.nextParameter names.reverse site)
  | bodyOpen {bare : Bool} {before list : List Token} {site : FunctionSite}
      {names : List String} :
      FunctionReach bare before site → ParametersDerive list names →
      ExpectationReach bare (before ++ list) (.bodyOpen names.reverse site)

theorem FunctionReach.nonempty {bare : Bool} {tokens : List Token} {site : FunctionSite}
    (reach : FunctionReach bare tokens site) : tokens ≠ [] := by
  cases reach <;> simp

/-- Only where a statement is expected, none is begun. -/
theorem ExpectationReach.nonempty {bare : Bool} {tokens : List Token} {expects : Expectation}
    (reach : ExpectationReach bare tokens expects) (begun : expects ≠ .statement) :
    tokens ≠ [] := by
  cases reach with
  | statement => exact absurd rfl begun
  | operand _ some? => exact some?
  | operator _ derived =>
    obtain ⟨first, rest, rfl, _⟩ := derived.begins
    simp
  | consequenceOpen _ derived =>
    obtain ⟨first, rest, rfl, _⟩ := derived.begins
    simp
  | elseWord _ derived _ =>
    obtain ⟨first, rest, rfl, _⟩ := derived.begins
    simp
  | parametersOpen reach => exact reach.nonempty
  | bodyOpen reach _ => simp [reach.nonempty]
  | _ => simp

/-- The tokens of an unfinished statement up to the brace that opens a block in it. -/
inductive OwnerReach : Bool → List Token → BlockOwner → Prop
  | consequence {bare : Bool} {before head : List Token} {site : IfSite} {condition : Expr}
      {opening : Token} :
      IfReach bare before site → Expr.DerivesCondition head condition →
      opening.IsSign .leftBrace →
      OwnerReach bare (before ++ head ++ [opening]) (.consequence condition site)
  | alternative {bare : Bool} {before head block : List Token} {site : IfSite}
      {condition : Expr} {consequence : Block} {word opening : Token} :
      IfReach bare before site → Expr.DerivesCondition head condition →
      Block.DerivesBraced block consequence → word.IsWord .elseWord →
      opening.IsSign .leftBrace →
      OwnerReach bare (before ++ head ++ block ++ [word, opening])
        (.alternative condition consequence site)
  | body {bare : Bool} {before list : List Token} {site : FunctionSite}
      {parameters : List String} {opening : Token} :
      FunctionReach bare before site → ParametersDerive list parameters →
      opening.IsSign .leftBrace →
      OwnerReach bare (before ++ list ++ [opening]) (.body parameters site)

/-- An expression with nothing before it does not begin with `if`. -/
def Plain (bare : Bool) (tokens : List Token) : Prop :=
  bare = true → ∀ first ∈ tokens.head?, ¬ first.IsWord .ifWord

/-- The tokens of the statements kept in a list. Whatever list of statements may stand
behind them goes on with the list, as long as it is empty or begins with `next`. -/
def KeptReach (tokens : List Token) (kept : Block) (next : Option Token) : Prop :=
  ∀ rest more, (∀ token ∈ next, ∀ first ∈ rest.head?, first = token) →
    Block.Derives rest more → Block.Derives (tokens ++ rest) (kept.reverse ++ more)

/-- The tokens up to the end of the innermost open list, each open block behind the
statement it belongs to. -/
inductive StackReach : List OpenBlock → Block → List Token → Option Token → Prop
  | outermost {kept : Block} {tokens : List Token} {next : Option Token} :
      KeptReach tokens kept next → StackReach [] kept tokens next
  | inner {outer : List OpenBlock} {around kept : Block} {owner : BlockOwner} {bare : Bool}
      {before lead tokens : List Token} {next : Option Token} :
      StackReach outer around before lead.head? → OwnerReach bare lead owner →
      Plain bare lead → KeptReach tokens kept next →
      StackReach (⟨owner, around⟩ :: outer) kept (before ++ lead ++ tokens) next

/-- The tokens behind which a reader without errors stands. -/
def ReaderReach (tokens : List Token) (reader : Reader) : Prop :=
  ∃ bare before current, tokens = before ++ current ∧
    StackReach reader.opened reader.kept before current.head? ∧
    ExpectationReach bare current reader.expects ∧ Plain bare current

theorem KeptReach.derives {tokens : List Token} {kept : Block} {next : Option Token}
    (reach : KeptReach tokens kept next) : Block.Derives tokens kept.reverse := by
  have derived := reach [] [] (by simp) .nil
  simpa only [List.append_nil] using derived

theorem KeptReach.start : KeptReach [] [] none := by
  intro rest more _ derived
  exact derived

theorem KeptReach.ahead {tokens : List Token} {kept : Block} (reach : KeptReach tokens kept none)
    (next : Option Token) : KeptReach tokens kept next := by
  intro rest more _ derived
  exact reach rest more (by simp) derived

theorem KeptReach.semicolon {tokens : List Token} {kept : Block} {mark : Token}
    (reach : KeptReach tokens kept (some mark)) (is : mark.IsSign .semicolon) :
    KeptReach (tokens ++ [mark]) kept none := by
  intro rest more _ derived
  rw [List.append_assoc]
  exact reach _ _ (by simp) (.semicolon is derived)

/-- A statement that is over joins the list. If it ends in an expression, the token
behind it is known, and the expression cannot go on with it. -/
theorem KeptReach.keep {tokens current : List Token} {kept : Block} {ending : Ending} {stmt : Stmt}
    {next : Option Token} (reach : KeptReach tokens kept current.head?)
    (derived : Stmt.Derives ending current stmt)
    (apart : ending = .expression → ∃ token ∈ next, token.kind.goesOn = false) :
    KeptReach (tokens ++ current) (stmt :: kept) next := by
  intro rest more follows rested
  have whole : Block.Derives (current ++ rest) (stmt :: more) := by
    refine .unended derived ?_ rested
    intro inExpression first begins
    obtain ⟨token, known, stops⟩ := apart inExpression
    rw [follows token known first begins]
    exact stops
  rw [List.append_assoc, List.reverse_cons, List.append_assoc]
  refine reach _ _ ?_ whole
  obtain ⟨first, tail, rfl, _⟩ := derived.begins
  simp

theorem StackReach.ahead {opened : List OpenBlock} {kept : Block} {tokens : List Token}
    (reach : StackReach opened kept tokens none) (next : Option Token) :
    StackReach opened kept tokens next := by
  cases reach with
  | outermost list => exact .outermost (list.ahead next)
  | inner stack owner plain list => exact .inner stack owner plain (list.ahead next)

theorem StackReach.semicolon {opened : List OpenBlock} {kept : Block} {tokens : List Token}
    {mark : Token} (reach : StackReach opened kept tokens (some mark))
    (is : mark.IsSign .semicolon) : StackReach opened kept (tokens ++ [mark]) none := by
  cases reach with
  | outermost list => exact .outermost (list.semicolon is)
  | inner stack owner plain list =>
    rw [List.append_assoc]
    exact .inner stack owner plain (list.semicolon is)

theorem StackReach.keep {opened : List OpenBlock} {kept : Block} {tokens current : List Token}
    {ending : Ending} {stmt : Stmt} {next : Option Token}
    (reach : StackReach opened kept tokens current.head?)
    (derived : Stmt.Derives ending current stmt)
    (apart : ending = .expression → ∃ token ∈ next, token.kind.goesOn = false) :
    StackReach opened (stmt :: kept) (tokens ++ current) next := by
  cases reach with
  | outermost list => exact .outermost (list.keep derived apart)
  | inner stack owner plain list =>
    rw [List.append_assoc]
    exact .inner stack owner plain (list.keep derived apart)

/-- Pending operators that a new one does not bind tighter than take its left operand
first, and what they make of it is of their own level. -/
theorem HoleReach.behind {bare : Bool} {before tokens : List Token} {hole : Hole} {level : Nat}
    {value : Expr} {op : Operator} {sign : Punctuation} {mark : Token}
    (reach : HoleReach bare before hole) (derived : Expr.Derives level tokens value)
    (fits : hole.level ≤ level) (le : op.level ≤ level) (is : mark.IsSign sign)
    (known : Operator.ofSign? sign = some op) :
    HoleReach bare (before ++ tokens ++ [mark]) (hole.behind op value) := by
  induction hole generalizing before tokens level value with
  | right pending left outer ih =>
    rw [Hole.level_right] at fits
    by_cases tighter : pending.level < op.level
    · have loose : (Hole.right pending left outer).level ≤ op.level := tighter
      rw [Hole.behind_of_level_le value loose]
      exact .right reach loose (derived.looser le) is known
    · cases reach with
      | right reach below first isPending pendingKnown =>
        have whole := Expr.Derives.binary first isPending pendingKnown (derived.looser fits)
        have taken := ih reach whole below (by omega)
        rw [Hole.behind, if_neg tighter]
        simpa only [List.append_assoc, List.cons_append, List.nil_append] using taken
  | negation outer ih =>
    rw [Hole.level_negation] at fits
    cases reach with
    | negation reach isMinus =>
      have whole := Expr.Derives.negation isMinus (derived.looser fits)
      have taken := ih reach whole outer.level_le_negationLevel
        (Nat.le_of_lt op.level_lt_negationLevel)
      rw [Hole.behind]
      simpa only [List.append_assoc, List.cons_append, List.nil_append] using taken
  | _ => exact .right reach op.level_pos (derived.looser le) is known

/-- One more argument behind those that were read. -/
theorem HoleReach.arguments {bare : Bool} {current tokens : List Token} {callee value : Expr}
    {earlier : List Expr} {outer : Hole}
    (reach : HoleReach bare current (.argument callee earlier outer))
    (derived : Expr.Derives 1 tokens value) :
    ∃ before called opening list, HoleReach bare before outer ∧
      Expr.Derives Operator.callLevel called callee ∧ opening.IsSign .leftParen ∧
      Expr.DeriveList list (value :: earlier).reverse ∧
      current ++ tokens = before ++ called ++ opening :: list := by
  cases reach with
  | @firstArgument _ before called _ opening _ reach first opens =>
    exact ⟨before, called, opening, tokens, reach, first, opens, .one derived, by simp⟩
  | @nextArgument _ before called list _ opening comma _ values reach first opens listed separates =>
    refine ⟨before, called, opening, list ++ comma :: tokens, reach, first, opens, ?_, by simp⟩
    rw [List.reverse_cons, List.reverse_reverse]
    exact .more listed separates derived

end ScopeScript
