import ScopeScript.Reading.Reader

namespace ScopeScript

abbrev Token.IsSign (token : Token) (sign : Punctuation) : Prop := token.kind = .punctuation sign

abbrev Token.IsWord (token : Token) (word : Keyword) : Prop := token.kind = .keyword word

/-- The number that a run of digits stands for. -/
def Token.decimal (token : Token) : Nat := Nat.ofDigitChars 10 token.lexeme.toList 0

/-- Tokens with which an expression goes on that could as well end before them:
the operators, and the parenthesis that makes a call of it. -/
def Kind.goesOn : Kind → Bool
  | .punctuation .leftParen => true
  | .punctuation sign => (Operator.ofSign? sign).isSome
  | _ => false

/-- Only what is called binds tighter than a negation. -/
def Operator.callLevel : Nat := negationLevel + 1

/-- One name or more, with commas between them. -/
inductive NamesDerive : List Token → List String → Prop
  | one {name : Token} : name.kind = .identifier → NamesDerive [name] [name.lexeme]
  | more {tokens : List Token} {names : List String} {comma name : Token} :
      NamesDerive tokens names → comma.IsSign .comma → name.kind = .identifier →
      NamesDerive (tokens ++ [comma, name]) (names ++ [name.lexeme])

/-- The parameters of a function in their parentheses. -/
inductive ParametersDerive : List Token → List String → Prop
  | none {opening closing : Token} : opening.IsSign .leftParen → closing.IsSign .rightParen →
      ParametersDerive [opening, closing] []
  | some {opening closing : Token} {tokens : List Token} {names : List String} :
      opening.IsSign .leftParen → NamesDerive tokens names → closing.IsSign .rightParen →
      ParametersDerive (opening :: tokens ++ [closing]) names

/-- How the tokens of a statement end: at a brace that nothing goes on behind, or
in an expression that reaches as far as it can. -/
inductive Ending
  | brace
  | expression

mutual

/-- Tokens that are an expression of a level. Level 1 takes in every expression;
comparisons, sums, products, negations and calls have a level each, and what is
tighter stands for what is looser. Equal levels group to the left. -/
inductive Expr.Derives : Nat → List Token → Expr → Prop
  | tighter {level : Nat} {tokens : List Token} {value : Expr} :
      Expr.Derives (level + 1) tokens value → Expr.Derives level tokens value
  | binary {op : Operator} {sign : Punctuation} {before after : List Token} {mark : Token}
      {left right : Expr} :
      Expr.Derives op.level before left → mark.IsSign sign → Operator.ofSign? sign = some op →
      Expr.Derives (op.level + 1) after right →
      Expr.Derives op.level (before ++ mark :: after) (.binary op left right)
  | negation {mark : Token} {tokens : List Token} {operand : Expr} :
      mark.IsSign .minus → Expr.Derives Operator.negationLevel tokens operand →
      Expr.Derives Operator.negationLevel (mark :: tokens) operand.negation
  | call {before list : List Token} {callee : Expr} {arguments : List Expr} :
      Expr.Derives Operator.callLevel before callee → Expr.DeriveArguments list arguments →
      Expr.Derives Operator.callLevel (before ++ list) (.call callee arguments)
  | integer {digits : Token} {value : Int64} :
      digits.kind = .integer → value.toInt = (digits.decimal : Int) →
      Expr.Derives Operator.callLevel [digits] (.integer value)
  | name {word : Token} :
      word.kind = .identifier → Expr.Derives Operator.callLevel [word] (.name word.lexeme)
  | truth {word : Token} :
      word.IsWord .trueWord → Expr.Derives Operator.callLevel [word] (.boolean true)
  | falsity {word : Token} :
      word.IsWord .falseWord → Expr.Derives Operator.callLevel [word] (.boolean false)
  | group {opening closing : Token} {tokens : List Token} {value : Expr} :
      opening.IsSign .leftParen → Expr.Derives 1 tokens value → closing.IsSign .rightParen →
      Expr.Derives Operator.callLevel (opening :: tokens ++ [closing]) value
  | branch {tokens : List Token} {value : Expr} :
      Expr.DerivesIf tokens value → Expr.Derives Operator.callLevel tokens value
  | function {word : Token} {tokens : List Token} {parameters : List String} {body : Block} :
      word.IsWord .functionWord → Block.DerivesFunction tokens parameters body →
      Expr.Derives Operator.callLevel (word :: tokens) (.function parameters body)

/-- One expression or more, with commas between them. -/
inductive Expr.DeriveList : List Token → List Expr → Prop
  | one {tokens : List Token} {value : Expr} :
      Expr.Derives 1 tokens value → Expr.DeriveList tokens [value]
  | more {before after : List Token} {comma : Token} {values : List Expr} {value : Expr} :
      Expr.DeriveList before values → comma.IsSign .comma → Expr.Derives 1 after value →
      Expr.DeriveList (before ++ comma :: after) (values ++ [value])

/-- The arguments of a call in their parentheses. -/
inductive Expr.DeriveArguments : List Token → List Expr → Prop
  | none {opening closing : Token} : opening.IsSign .leftParen → closing.IsSign .rightParen →
      Expr.DeriveArguments [opening, closing] []
  | some {opening closing : Token} {tokens : List Token} {values : List Expr} :
      opening.IsSign .leftParen → Expr.DeriveList tokens values → closing.IsSign .rightParen →
      Expr.DeriveArguments (opening :: tokens ++ [closing]) values

/-- An `if` up to the parenthesis behind its condition. -/
inductive Expr.DerivesCondition : List Token → Expr → Prop
  | mk {word opening closing : Token} {tokens : List Token} {condition : Expr} :
      word.IsWord .ifWord → opening.IsSign .leftParen → Expr.Derives 1 tokens condition →
      closing.IsSign .rightParen →
      Expr.DerivesCondition (word :: opening :: tokens ++ [closing]) condition

inductive Expr.DerivesIf : List Token → Expr → Prop
  | alone {head block : List Token} {condition : Expr} {consequence : Block} :
      Expr.DerivesCondition head condition → Block.DerivesBraced block consequence →
      Expr.DerivesIf (head ++ block) (.ifThen condition consequence)
  | withElse {head first second : List Token} {word : Token} {condition : Expr}
      {consequence alternative : Block} :
      Expr.DerivesCondition head condition → Block.DerivesBraced first consequence →
      word.IsWord .elseWord → Block.DerivesBraced second alternative →
      Expr.DerivesIf (head ++ first ++ word :: second) (.ifElse condition consequence alternative)

/-- A function behind its keyword or its name. -/
inductive Block.DerivesFunction : List Token → List String → Block → Prop
  | mk {list block : List Token} {parameters : List String} {body : Block} :
      ParametersDerive list parameters → Block.DerivesBraced block body →
      Block.DerivesFunction (list ++ block) parameters body

/-- A block with its braces. -/
inductive Block.DerivesBraced : List Token → Block → Prop
  | mk {opening closing : Token} {tokens : List Token} {body : Block} :
      opening.IsSign .leftBrace → Block.Derives tokens body → closing.IsSign .rightBrace →
      Block.DerivesBraced (opening :: tokens ++ [closing]) body

/-- Statements and lone semicolons. A statement may have a semicolon behind it. One
that ends in an expression without a semicolon has no token behind it with which
the expression could go on. -/
inductive Block.Derives : List Token → Block → Prop
  | nil : Block.Derives [] []
  | semicolon {mark : Token} {rest : List Token} {body : Block} :
      mark.IsSign .semicolon → Block.Derives rest body → Block.Derives (mark :: rest) body
  | ended {ending : Ending} {tokens rest : List Token} {mark : Token} {stmt : Stmt} {body : Block} :
      Stmt.Derives ending tokens stmt → mark.IsSign .semicolon → Block.Derives rest body →
      Block.Derives (tokens ++ mark :: rest) (stmt :: body)
  | unended {ending : Ending} {tokens rest : List Token} {stmt : Stmt} {body : Block} :
      Stmt.Derives ending tokens stmt →
      (ending = .expression → ∀ next ∈ rest.head?, next.kind.goesOn = false) →
      Block.Derives rest body → Block.Derives (tokens ++ rest) (stmt :: body)

/-- A statement without a semicolon. What begins with `if` ends with it. -/
inductive Stmt.Derives : Ending → List Token → Stmt → Prop
  | var {word name mark : Token} {tokens : List Token} {value : Expr} :
      word.IsWord .varWord → name.kind = .identifier → mark.IsSign .equal →
      Expr.Derives 1 tokens value →
      Stmt.Derives .expression (word :: name :: mark :: tokens) (.var name.lexeme value)
  | function {word name : Token} {tokens : List Token} {parameters : List String} {body : Block} :
      word.IsWord .functionWord → name.kind = .identifier →
      Block.DerivesFunction tokens parameters body →
      Stmt.Derives .brace (word :: name :: tokens) (.function name.lexeme parameters body)
  | returns {word : Token} {tokens : List Token} {value : Expr} :
      word.IsWord .returnWord → Expr.Derives 1 tokens value →
      Stmt.Derives .expression (word :: tokens) (.returns value)
  | exits {word : Token} {tokens : List Token} {code : Expr} :
      word.IsWord .exitWord → Expr.Derives 1 tokens code →
      Stmt.Derives .expression (word :: tokens) (.exits code)
  | branch {tokens : List Token} {value : Expr} :
      Expr.DerivesIf tokens value → Stmt.Derives .brace tokens (.expression value)
  | expression {tokens : List Token} {value : Expr} :
      Expr.Derives 1 tokens value → (∀ first ∈ tokens.head?, ¬ first.IsWord .ifWord) →
      Stmt.Derives .expression tokens (.expression value)

end

/-- The tokens of a text are a program and the end of the text. -/
def Block.DerivesProgram (tokens : List Token) (program : Block) : Prop :=
  ∃ body last, tokens = body ++ [last] ∧ last.kind = .endOfInput ∧ Block.Derives body program

/-- What may stand at a tight level may stand at every looser one. -/
theorem Expr.Derives.looser {high low : Nat} {tokens : List Token} {value : Expr}
    (derived : Expr.Derives high tokens value) (le : low ≤ high) :
    Expr.Derives low tokens value := by
  induction high with
  | zero => rwa [Nat.le_zero.mp le]
  | succ high ih =>
    rcases Nat.le_succ_iff.mp le with below | same
    · exact ih derived.tighter below
    · rwa [same]

/-- Lists grow at their end, and they may as well grow at their beginning. -/
theorem NamesDerive.cons {name comma : Token} {tokens : List Token} {names : List String}
    (is : name.kind = .identifier) (separates : comma.IsSign .comma)
    (more : NamesDerive tokens names) :
    NamesDerive (name :: comma :: tokens) (name.lexeme :: names) := by
  induction more with
  | one next => exact .more (.one is) separates next
  | more _ mark next ih => exact .more ih mark next

theorem Expr.DeriveList.cons {before : List Token} {comma : Token} {value : Expr}
    (first : Expr.Derives 1 before value) (separates : comma.IsSign .comma) :
    ∀ {tokens : List Token} {values : List Expr}, Expr.DeriveList tokens values →
      Expr.DeriveList (before ++ comma :: tokens) (value :: values)
  | _, _, .one derived => .more (.one first) separates derived
  | _, _, .more list mark derived => by
    have longer := (DeriveList.cons first separates list).more mark derived
    rwa [List.append_assoc, List.cons_append] at longer

theorem Expr.DerivesCondition.begins {tokens : List Token} {condition : Expr}
    (derived : Expr.DerivesCondition tokens condition) :
    ∃ first rest, tokens = first :: rest ∧ first.IsWord .ifWord := by
  cases derived with
  | mk word => exact ⟨_, _, rfl, word⟩

theorem Expr.DerivesIf.begins {tokens : List Token} {value : Expr}
    (derived : Expr.DerivesIf tokens value) :
    ∃ first rest, tokens = first :: rest ∧ first.IsWord .ifWord := by
  cases derived with
  | alone head block =>
    obtain ⟨first, rest, rfl, word⟩ := head.begins
    exact ⟨first, _, rfl, word⟩
  | withElse head first word second =>
    obtain ⟨begin, rest, rfl, isWord⟩ := head.begins
    exact ⟨begin, _, rfl, isWord⟩

/-- Kinds that no expression and no statement begins with. -/
def Kind.leadsNothing : Kind → Bool
  | .keyword .elseWord => true
  | .punctuation .rightParen => true
  | _ => false

/-- An expression has a first token, and it is one that can begin an operand. -/
theorem Expr.Derives.begins {level : Nat} {tokens : List Token} {value : Expr} :
    Expr.Derives level tokens value →
      ∃ first rest, tokens = first :: rest ∧ first.kind.leadsNothing = false
  | .tighter derived => derived.begins
  | .binary left _ _ _ => by
    obtain ⟨first, rest, rfl, leads⟩ := left.begins
    exact ⟨first, _, rfl, leads⟩
  | .call callee _ => by
    obtain ⟨first, rest, rfl, leads⟩ := callee.begins
    exact ⟨first, _, rfl, leads⟩
  | .branch derived => by
    obtain ⟨first, rest, rfl, word⟩ := derived.begins
    exact ⟨first, rest, rfl, by rw [word]; rfl⟩
  | .negation is _ | .integer is _ | .name is | .truth is | .falsity is | .group is _ _
  | .function is _ => ⟨_, _, rfl, by rw [is]; rfl⟩

theorem Expr.DeriveList.begins {tokens : List Token} {values : List Expr} :
    Expr.DeriveList tokens values →
      ∃ first rest, tokens = first :: rest ∧ first.kind.leadsNothing = false
  | .one derived => derived.begins
  | .more list _ _ => by
    obtain ⟨first, rest, rfl, leads⟩ := list.begins
    exact ⟨first, _, rfl, leads⟩

theorem Stmt.Derives.begins {ending : Ending} {tokens : List Token} {stmt : Stmt}
    (derived : Stmt.Derives ending tokens stmt) :
    ∃ first rest, tokens = first :: rest ∧ first.kind.leadsNothing = false := by
  cases derived with
  | var is _ _ _ => exact ⟨_, _, rfl, by rw [is]; rfl⟩
  | function is _ _ => exact ⟨_, _, rfl, by rw [is]; rfl⟩
  | returns is _ => exact ⟨_, _, rfl, by rw [is]; rfl⟩
  | exits is _ => exact ⟨_, _, rfl, by rw [is]; rfl⟩
  | branch derived =>
    obtain ⟨first, rest, rfl, word⟩ := derived.begins
    exact ⟨first, rest, rfl, by rw [word]; rfl⟩
  | expression derived _ => exact derived.begins

theorem Block.Derives.begins {tokens : List Token} {body : Block}
    (derived : Block.Derives tokens body) :
    ∀ first ∈ tokens.head?, first.kind.leadsNothing = false := by
  cases derived with
  | nil => simp
  | semicolon is _ =>
    intro first member
    cases Option.mem_some.mp member
    rw [is]
    rfl
  | ended stmt _ _ =>
    obtain ⟨first, rest, rfl, leads⟩ := stmt.begins
    simpa using leads
  | unended stmt _ _ =>
    obtain ⟨first, rest, rfl, leads⟩ := stmt.begins
    simpa using leads

end ScopeScript
