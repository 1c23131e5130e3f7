import ScopeScript.Proofs.Grammar.Step
import ScopeScript.Proofs.Token.Joining

namespace ScopeScript

/-- The same error in another place. -/
def SyntaxError.moved (move : Position → Position) (error : SyntaxError) : SyntaxError :=
  { error with position := move error.position }

/-- Puts statements before those that stand around the outermost block. -/
def OpenBlock.under (before : Block) : List OpenBlock → List OpenBlock
  | [] => []
  | [block] => [{ block with around := block.around ++ before }]
  | block :: next :: outer => block :: under before (next :: outer)

/-- As many blocks are open as were, so as many braces may be missing. -/
theorem OpenBlock.length_under (before : Block) (opened : List OpenBlock) :
    (under before opened).length = opened.length := by
  induction opened with
  | nil => rfl
  | cons block outer ih =>
    cases outer with
    | nil => rfl
    | cons next outer => exact congrArg (· + 1) ih

/-- Only the list around the outermost block gets longer. -/
theorem OpenBlock.getLast?_under (before : Block) (opened : List OpenBlock) :
    (under before opened).getLast?.map OpenBlock.around =
      (opened.getLast?.map OpenBlock.around).map (· ++ before) := by
  induction opened with
  | nil => rfl
  | cons block outer ih =>
    cases outer with
    | nil => rfl
    | cons next outer =>
      have some? : under before (next :: outer) ≠ [] := by
        intro none
        have lengths := length_under before (next :: outer)
        rw [none] at lengths
        exact absurd lengths (Nat.succ_ne_zero _).symm
      rw [under, List.getLast?_cons_of_ne_nil some?, ih, List.getLast?_cons_cons]

/-- Where a text stands, and what was kept and found wrong before it. -/
structure Context where
  move : Position → Position
  kept : Block
  errors : List SyntaxError

namespace Context

/-- What is known behind a part of the text, if there is something before the text. -/
def around (context : Context) (reader : Reader) : Reader :=
  { opened := OpenBlock.under context.kept reader.opened
    kept := if reader.opened.isEmpty then reader.kept ++ context.kept else reader.kept
    expects := reader.expects
    errors := reader.errors.map (SyntaxError.moved context.move) ++ context.errors }

variable (context : Context) (reader : Reader)

theorem around_await (expects : Expectation) :
    (context.around reader).await expects = context.around (reader.await expects) := rfl

/-- A statement is kept in the innermost list, that of the text itself if no block is open. -/
theorem around_keep (stmt : Stmt) :
    (context.around reader).keep stmt = context.around (reader.keep stmt) := by
  obtain ⟨opened, kept, expects, errors⟩ := reader
  cases opened <;> rfl

theorem around_enter (owner : BlockOwner) :
    (context.around reader).enter owner = context.around (reader.enter owner) := by
  obtain ⟨opened, kept, expects, errors⟩ := reader
  cases opened <;> rfl

theorem around_completeIf (value : Expr) (site : IfSite) :
    (context.around reader).completeIf value site = context.around (reader.completeIf value site) := by
  cases site with
  | statement => exact context.around_keep reader _
  | operand hole => rfl

theorem around_completeFunction (parameters : List String) (body : Block) (site : FunctionSite) :
    (context.around reader).completeFunction parameters body site =
      context.around (reader.completeFunction parameters body site) := by
  cases site with
  | statement name => exact context.around_keep reader _
  | operand hole => rfl

/-- What a block completes depends on the block and its owner alone. -/
theorem around_complete (body : Block) (owner : BlockOwner) :
    (context.around reader).complete body owner = context.around (reader.complete body owner) := by
  cases owner with
  | consequence condition site => rfl
  | alternative condition consequence site => exact context.around_completeIf reader _ site
  | body parameters site => exact context.around_completeFunction reader parameters body site

/-- The list that is given up for the lack of braces keeps what stands before it. -/
theorem around_finish (token : Token) :
    (context.around reader).finish (token.moved context.move) =
      context.around (reader.finish token) := by
  have lists := OpenBlock.getLast?_under context.kept reader.opened
  unfold Reader.finish
  simp only [around, OpenBlock.length_under, lists, List.map_append, List.map_replicate,
    List.append_assoc, Reader.mk.injEq]
  refine ⟨rfl, ?_, trivial, rfl⟩
  obtain ⟨opened, kept, expects, errors⟩ := reader
  cases opened with
  | nil => rfl
  | cons block outer => simp [List.getLast?_cons]

/-- A closing brace gives back the list around the block, at the last block that of the text. -/
theorem around_close {block : OpenBlock} {outer : List OpenBlock}
    (known : reader.opened = block :: outer) (token : Token) (is : token.IsSign .rightBrace) :
    (context.around reader).feedStatement (token.moved context.move) =
      context.around (reader.close block outer) := by
  obtain ⟨opened, kept, expects, errors⟩ := reader
  cases known
  simp only [Reader.feedStatement, Token.moved_kind, is]
  cases outer with
  | nil =>
    rw [Reader.close_eq, ← context.around_complete]
    exact Reader.close_eq ..
  | cons next outer =>
    rw [Reader.close_eq, ← context.around_complete]
    exact Reader.close_eq ..

/-- No operand depends on what stands before its statement. -/
theorem around_feedOperand (hole : Hole) (token : Token) :
    (context.around reader).feedOperand hole (token.moved context.move) =
      context.around (reader.feedOperand hole token) := by
  have ended := context.around_finish (reader.blame (.noOperand token.kind) token) token
  obtain ⟨kind, lexeme, position⟩ := token
  cases kind with
  | integer =>
    unfold Reader.feedOperand
    dsimp only [Token.moved]
    cases Reader.integer? lexeme <;> rfl
  | endOfInput => exact ended
  | punctuation sign => cases sign <;> rfl
  | keyword word => cases word <;> rfl
  | _ => rfl

/-- A closing brace is the only token that asks whether a block is open, and the same blocks are. -/
theorem around_feedStatement (token : Token) :
    (context.around reader).feedStatement (token.moved context.move) =
      context.around (reader.feedStatement token) := by
  have operand := context.around_feedOperand reader .statement token
  have ended := context.around_finish reader token
  by_cases closes : token.IsSign .rightBrace
  · cases known : reader.opened with
    | nil =>
      obtain ⟨opened, kept, expects, errors⟩ := reader
      cases known
      simp only [Reader.feedStatement, Token.moved_kind, closes]
      rfl
    | cons block outer =>
      rw [context.around_close reader known token closes]
      simp only [Reader.feedStatement, closes, known]
  obtain ⟨kind, lexeme, position⟩ := token
  cases kind with
  | endOfInput => exact ended
  | punctuation sign =>
    cases sign with
    | rightBrace => exact absurd rfl closes
    | semicolon => rfl
    | _ => exact operand
  | keyword word =>
    cases word with
    | elseWord | trueWord | falseWord => exact operand
    | _ => rfl
  | _ => exact operand

theorem around_refuse (expected : Kind) (token : Token) :
    (context.around reader).refuse expected (token.moved context.move) =
      context.around (reader.refuse expected token) :=
  context.around_feedStatement (reader.blame (.unexpected expected token.kind) token) token

theorem around_expect (kind : Kind) (next : Expectation) (token : Token) :
    (context.around reader).expect kind next (token.moved context.move) =
      context.around (reader.expect kind next token) := by
  unfold Reader.expect
  by_cases is : token.kind = kind
  · rw [if_pos is, Token.moved_kind, if_pos is, context.around_await]
  · rw [if_neg is, Token.moved_kind, if_neg is, context.around_refuse]

theorem around_expectBlock (owner : BlockOwner) (token : Token) :
    (context.around reader).expectBlock owner (token.moved context.move) =
      context.around (reader.expectBlock owner token) := by
  unfold Reader.expectBlock
  by_cases is : token.kind = .punctuation .leftBrace
  · rw [if_pos is, Token.moved_kind, if_pos is]
    exact context.around_enter reader owner
  · rw [if_neg is, Token.moved_kind, if_neg is, context.around_refuse]

/-- Holes are filled from the inside outwards, up to the statement and no further. -/
theorem around_settle (token : Token) (value : Expr) (hole : Hole) :
    (context.around reader).settle (token.moved context.move) value hole =
      context.around (reader.settle token value hole) := by
  have ended (stmt : Stmt) :
      ((context.around reader).keep stmt).feedStatement (token.moved context.move) =
        context.around ((reader.keep stmt).feedStatement token) := by
    rw [context.around_keep, context.around_feedStatement]
  induction hole generalizing value with
  | right op left outer ih => exact ih _
  | negation outer ih => exact ih _
  | argument callee earlier outer =>
    unfold Reader.settle
    by_cases separates : token.kind = .punctuation .comma
    · rw [if_pos separates, Token.moved_kind, if_pos separates, context.around_await]
    · rw [if_neg separates, Token.moved_kind, if_neg separates, context.around_expect]
  | group outer => exact context.around_expect ..
  | statementCondition => exact context.around_expect ..
  | condition outer => exact context.around_expect ..
  | statement => exact ended _
  | initializer name => exact ended _
  | result => exact ended _
  | exitCode => exact ended _

theorem around_feedOperator (value : Expr) (hole : Hole) (token : Token) :
    (context.around reader).feedOperator value hole (token.moved context.move) =
      context.around (reader.feedOperator value hole token) := by
  have settles := context.around_settle reader token value hole
  obtain ⟨kind, lexeme, position⟩ := token
  cases kind with
  | punctuation sign =>
    cases sign with
    | leftParen | plus | minus | star | slash | greater | less => rfl
    | _ => exact settles
  | _ => exact settles

/-- A token is read alike wherever a text stands and whatever was before it. -/
theorem around_feed (token : Token) :
    (context.around reader).feed (token.moved context.move) = context.around (reader.feed token) := by
  have same : (context.around reader).expects = reader.expects := rfl
  unfold Reader.feed
  rw [same]
  cases reader.expects with
  | statement => exact context.around_feedStatement reader token
  | operand hole => exact context.around_feedOperand reader hole token
  | operator value hole => exact context.around_feedOperator reader value hole token
  | functionName =>
    rw [apply_ite context.around, ← context.around_expect]
    rfl
  | firstArgument callee hole =>
    rw [apply_ite context.around, ← context.around_feedOperand]
    rfl
  | firstParameter site =>
    rw [apply_ite context.around, ← context.around_expect]
    rfl
  | parametersEnd earlier site =>
    rw [apply_ite context.around, ← context.around_expect]
    rfl
  | elseWord condition consequence site =>
    rw [apply_ite context.around]
    cases site with
    | statement =>
      dsimp only
      rw [← context.around_feedStatement, ← context.around_keep]
      rfl
    | operand hole =>
      dsimp only
      rw [← context.around_feedOperator]
      rfl
  | consequenceOpen condition site => exact context.around_expectBlock reader _ token
  | alternativeOpen condition consequence site => exact context.around_expectBlock reader _ token
  | bodyOpen earlier site => exact context.around_expectBlock reader _ token
  | variableName => exact context.around_expect reader _ _ token
  | equalSign name => exact context.around_expect reader _ _ token
  | conditionOpen site => exact context.around_expect reader _ _ token
  | parametersOpen site => exact context.around_expect reader _ _ token
  | nextParameter earlier site => exact context.around_expect reader _ _ token

/-- A whole text is read alike behind another one. -/
theorem around_foldl (tokens : List Token) :
    (tokens.map (Token.moved context.move)).foldl Reader.feed (context.around reader) =
      context.around (tokens.foldl Reader.feed reader) := by
  induction tokens generalizing reader with
  | nil => rfl
  | cons token tokens ih =>
    rw [List.map_cons, List.foldl_cons, List.foldl_cons, context.around_feed, ih]

end Context

theorem OpenBlock.under_nil (opened : List OpenBlock) : under [] opened = opened := by
  induction opened with
  | nil => rfl
  | cons block outer ih =>
    cases outer with
    | nil => simp only [under, List.append_nil]
    | cons next outer => rw [under, ih]

/-- Two readers differ in the places of their errors only. -/
structure Reader.Alike (reader other : Reader) : Prop where
  opened : reader.opened = other.opened
  kept : reader.kept = other.kept
  expects : reader.expects = other.expects
  faults : reader.errors.map SyntaxError.fault = other.errors.map SyntaxError.fault

/-- A context that forgets all places. -/
def Context.placeless : Context := ⟨fun _ => .start, [], []⟩

/-- Readers that are equal once all places are forgotten differ in these alone. -/
theorem Context.alike_of_placeless {reader other : Reader}
    (same : Context.placeless.around reader = Context.placeless.around other) :
    reader.Alike other := by
  simp only [Context.around, Context.placeless, OpenBlock.under_nil, List.append_nil, ite_self,
    Reader.mk.injEq] at same
  obtain ⟨opened, kept, expects, errors⟩ := same
  refine ⟨opened, kept, expects, ?_⟩
  have faults := congrArg (List.map SyntaxError.fault) errors
  rwa [List.map_map, List.map_map] at faults

/-- Reading depends on the words alone, and not on where they stand. -/
theorem Reader.foldl_alike {tokens others : List Token}
    (same : tokens.map Token.word = others.map Token.word) (reader : Reader) :
    (tokens.foldl feed reader).Alike (others.foldl feed reader) := by
  have forgotten (list : List Token) : list.map (Token.moved Context.placeless.move) =
      (list.map Token.word).map fun word => ⟨word.1, word.2, .start⟩ := by
    rw [List.map_map]
    rfl
  apply Context.alike_of_placeless
  rw [← Context.around_foldl, ← Context.around_foldl, forgotten, forgotten, same]

end ScopeScript
