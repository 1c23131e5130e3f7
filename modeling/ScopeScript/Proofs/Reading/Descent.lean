import ScopeScript.Proofs.Grammar.Derivation
import ScopeScript.Proofs.Token.Pulling
import ScopeScript.Reading.Reader

namespace ScopeScript

/-- The token that is read, the one behind it, and the text behind both: tokens are pulled when they
are needed, and only two of them are seen at a time. Errors stand newest first. At the end of the
text nothing is left to move to. -/
structure Parser where
  current : Token
  peek : Token
  rest : Cursor
  errors : List SyntaxError
  atEnd : current.kind = .endOfInput → peek = current
  behindEnd : peek.kind = .endOfInput → rest.next = (peek, rest)

namespace Parser

def start (text : String) : Parser where
  current := (Cursor.ofString text).next.1
  peek := (Cursor.ofString text).next.2.next.1
  rest := (Cursor.ofString text).next.2.next.2
  errors := []
  atEnd ended := by rw [Cursor.next_of_ended ended]
  behindEnd ended := Cursor.next_of_ended ended

/-- Moves to the next token. -/
def advance (parser : Parser) : Parser where
  current := parser.peek
  peek := parser.rest.next.1
  rest := parser.rest.next.2
  errors := parser.errors
  atEnd ended := by rw [parser.behindEnd ended]
  behindEnd ended := Cursor.next_of_ended ended

def record (parser : Parser) (error : SyntaxError) : Parser :=
  { parser with errors := error :: parser.errors }

/-- The tokens from the current one on, up to the end token. -/
def ahead (parser : Parser) : List Token :=
  if parser.current.kind = .endOfInput then [parser.current]
  else
    parser.current ::
      if parser.peek.kind = .endOfInput then [parser.peek]
      else parser.peek :: parser.rest.collect []

/-- How many tokens are left before the end. -/
def left (parser : Parser) : Nat := parser.ahead.length - 1

end Parser

/-- Reading a part of a text gives a result or an error. It gives `none` if it gets stuck. -/
abbrev Parse (α : Type) := ExceptT SyntaxError (StateT Parser Option) α

namespace Parse

variable {α : Type}

def perform (action : Parse α) (parser : Parser) : Option (Except SyntaxError α × Parser) :=
  action.run.run parser

def look : Parse Parser := get

def advance : Parse Unit := modify Parser.advance

/-- The current token is wrong where it stands. -/
def fault (fault : Fault) : Parse α := do
  throw ⟨fault, (← look).current.position⟩

/-- Moves on if the next token is of the kind that must follow. -/
def expectPeek (kind : Kind) : Parse Unit := do
  let parser ← look
  if parser.peek.kind = kind then advance
  else throw ⟨.unexpected kind parser.peek.kind, parser.peek.position⟩

def skipSemicolon : Parse Unit := do
  if (← look).peek.kind = .punctuation .semicolon then advance else pure ()

/-- Behind a left parenthesis nothing may stand, or a list. -/
def unlessClosed (items : Parse (List α)) : Parse (List α) := do
  if (← look).peek.kind = .punctuation .rightParen then
    advance
    return []
  else items

/-- A statement may end with a semicolon. -/
def ended (part : Parse α) (stmt : α → Stmt) : Parse Stmt := do
  let value ← part
  skipSemicolon
  return stmt value

/-- Reads a statement and adds it to those before it, the newest first. An error is recorded in its
place. A lone semicolon is an empty statement. -/
def statementInto (statement : Parse Stmt) (kept : Block) : Parse Block := do
  if (← look).current.kind = .punctuation .semicolon then return kept
  else
    tryCatch (do return (← statement) :: kept) fun error => do
      modify fun parser => parser.record error
      return kept

end Parse

namespace Kind

def operator? : Kind → Option Operator
  | punctuation sign => Operator.ofSign? sign
  | _ => none

/-- How tightly the token binds what stands before it. -/
def level : Kind → Nat
  | punctuation .leftParen => Operator.callLevel
  | kind => (kind.operator?.map Operator.level).getD 0

end Kind

/-- What is read by descent. A construct asks for those that are parts of it, and a loop for itself
once more. What is kept from before stands newest first. -/
inductive Construct
  | program (kept : Block)
  | statement
  | expression (floor : Nat)
  | operators (floor : Nat) (first : Expr)
  | operand
  | operation (first : Expr)
  | conditional
  | block
  | statements (kept : Block)
  | function
  | parameters (earlier : List String)
  | arguments (earlier : List Expr)

namespace Construct

abbrev Result : Construct → Type
  | program _ | block | statements _ => Block
  | statement => Stmt
  | expression _ | operators _ _ | operand | operation _ | conditional => Expr
  | function => List String × Block
  | parameters _ => List String
  | arguments _ => List Expr

open Parse

/-- How a construct is read, where `read` reads its parts. -/
def body (read : (part : Construct) → Parse part.Result) : (whole : Construct) → Parse whole.Result
  | program kept => do
    if (← look).current.kind = .endOfInput then return kept.reverse
    else
      let kept ← statementInto (read statement) kept
      advance
      read (program kept)
  | statement => do
    match (← look).current.kind with
    | .keyword .varWord =>
      expectPeek .identifier
      let named ← look
      expectPeek (.punctuation .equal)
      advance
      ended (read (expression 0)) (.var named.current.lexeme)
    | .keyword .ifWord => ended (read conditional) .expression
    | .keyword .functionWord =>
      if (← look).peek.kind = .identifier then
        expectPeek .identifier
        let named ← look
        ended (read function) fun made => .function named.current.lexeme made.1 made.2
      else ended (read (expression 0)) .expression
    | .keyword .returnWord =>
      advance
      ended (read (expression 0)) .returns
    | .keyword .exitWord =>
      advance
      ended (read (expression 0)) .exits
    | _ => ended (read (expression 0)) .expression
  | expression floor => do
    let first ← read operand
    read (operators floor first)
  | operators floor first => do
    let parser ← look
    if parser.peek.kind ≠ .punctuation .semicolon ∧ floor < parser.peek.kind.level then
      advance
      let whole ← read (operation first)
      read (operators floor whole)
    else return first
  | operand => do
    let parser ← look
    match parser.current.kind with
    | .integer =>
      match Reader.integer? parser.current.lexeme with
      | some value => return .integer value
      | none => fault (.tooLarge parser.current.lexeme)
    | .identifier => return .name parser.current.lexeme
    | .keyword .trueWord => return .boolean true
    | .keyword .falseWord => return .boolean false
    | .punctuation .leftParen =>
      advance
      let value ← read (expression 0)
      expectPeek (.punctuation .rightParen)
      return value
    | .punctuation .minus =>
      advance
      let value ← read (expression Operator.negationLevel)
      return value.negation
    | .keyword .ifWord => read conditional
    | .keyword .functionWord =>
      let made ← read function
      return .function made.1 made.2
    | .illegal => fault (.illegal parser.current.lexeme)
    | found => fault (.noOperand found)
  | operation first => do
    let parser ← look
    if parser.current.kind = .punctuation .leftParen then
      let values ← unlessClosed do
        advance
        read (arguments [])
      return .call first values
    else
      match parser.current.kind.operator? with
      | some op =>
        advance
        let second ← read (expression parser.current.kind.level)
        return .binary op first second
      | none => fault (.noOperand parser.current.kind)
  | conditional => do
    expectPeek (.punctuation .leftParen)
    advance
    let condition ← read (expression 0)
    expectPeek (.punctuation .rightParen)
    expectPeek (.punctuation .leftBrace)
    let consequence ← read block
    if (← look).peek.kind = .keyword .elseWord then
      advance
      expectPeek (.punctuation .leftBrace)
      let alternative ← read block
      return .ifElse condition consequence alternative
    else return .ifThen condition consequence
  | block => do
    advance
    read (statements [])
  | statements kept => do
    match (← look).current.kind with
    | .punctuation .rightBrace => return kept.reverse
    | .endOfInput => fault (.unexpected (.punctuation .rightBrace) .endOfInput)
    | _ =>
      let kept ← statementInto (read statement) kept
      advance
      read (statements kept)
  | function => do
    expectPeek (.punctuation .leftParen)
    let names ← unlessClosed (read (parameters []))
    expectPeek (.punctuation .leftBrace)
    let inside ← read block
    return (names, inside)
  | parameters earlier => do
    expectPeek .identifier
    let parser ← look
    if parser.peek.kind = .punctuation .comma then
      advance
      read (parameters (parser.current.lexeme :: earlier))
    else
      expectPeek (.punctuation .rightParen)
      return (parser.current.lexeme :: earlier).reverse
  | arguments earlier => do
    let value ← read (expression 0)
    if (← look).peek.kind = .punctuation .comma then
      advance
      advance
      read (arguments (value :: earlier))
    else
      expectPeek (.punctuation .rightParen)
      return (value :: earlier).reverse

/-- A construct asks for parts of a lower rank where it stands itself. -/
def rank : Construct → Nat
  | block => 5
  | program _ | statements _ => 4
  | statement | arguments _ => 3
  | expression _ => 2
  | operand => 1
  | operators _ _ | operation _ | conditional | function | parameters _ => 0

/-- The part is read with fewer tokens left than the whole, or where the whole begins and
with a lower rank. -/
def Within (part : Construct) (there : Parser) (whole : Construct) (parser : Parser) : Prop :=
  there.left < parser.left ∨ there.left = parser.left ∧ part.rank < whole.rank

theorem Within.lex {part whole : Construct} {there parser : Parser}
    (within : part.Within there whole parser) :
    Prod.Lex (· < ·) (· < ·) (there.left, part.rank) (parser.left, whole.rank) := by
  rcases within with fewer | ⟨same, lower⟩
  · exact .left _ _ fewer
  · rw [same]
    exact .right _ lower

instance (part : Construct) (there : Parser) (whole : Construct) (parser : Parser) :
    Decidable (part.Within there whole parser) :=
  inferInstanceAs (Decidable (_ ∨ _))

/-- Reads a construct. Reading gets stuck as soon as a part is asked for that does not lie within
the whole, in particular if a construct asks for one like itself and no token was passed. -/
def run (whole : Construct) (parser : Parser) : Option (Except SyntaxError whole.Result × Parser) :=
  (whole.body fun part => ExceptT.mk fun there =>
    if part.Within there whole parser then part.run there else none).perform parser
termination_by (parser.left, whole.rank)
decreasing_by exact Within.lex ‹_›

/-- The reading of a construct as an action. -/
def parse (whole : Construct) : Parse whole.Result :=
  ExceptT.mk whole.run

/-- Reads the parts that lie within the whole, and no others. -/
def guarded (whole : Construct) (parser : Parser) (part : Construct) : Parse part.Result :=
  ExceptT.mk fun there => if part.Within there whole parser then part.run there else none

theorem run_eq (whole : Construct) (parser : Parser) :
    whole.run parser = (whole.body (whole.guarded parser)).perform parser := by
  rw [run]
  rfl

theorem perform_guarded (whole : Construct) (parser : Parser) (part : Construct) (there : Parser) :
    (whole.guarded parser part).perform there =
      if part.Within there whole parser then part.run there else none := rfl

end Construct

end ScopeScript
