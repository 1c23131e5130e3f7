import ScopeScript.Reading.Error
import ScopeScript.Reading.Pending
import ScopeScript.Token.Cursor

namespace ScopeScript

/-- A block whose closing brace is still to come, and the statements kept before
it in the list around it, newest first. -/
structure OpenBlock where
  owner : BlockOwner
  around : Block

/-- All that is known of a program between two of its tokens. Open blocks stand
innermost first, kept statements and errors newest first. -/
structure Reader where
  opened : List OpenBlock
  kept : Block
  expects : Expectation
  errors : List SyntaxError

namespace Reader

/-- Before the first token. -/
def start : Reader := ⟨[], [], .statement, []⟩

def await (reader : Reader) (expects : Expectation) : Reader :=
  { reader with expects := expects }

/-- A finished statement joins the innermost open list. -/
def keep (reader : Reader) (stmt : Stmt) : Reader :=
  { reader with kept := stmt :: reader.kept, expects := .statement }

/-- Records a fault and gives up the statement it is in, but no list around it. -/
def blame (reader : Reader) (fault : Fault) (token : Token) : Reader :=
  { reader with errors := ⟨fault, token.position⟩ :: reader.errors, expects := .statement }

/-- The value of a digit run, if it is one of the 64-bit integers. -/
def integer? (lexeme : String) : Option Int64 :=
  let value := Nat.ofDigitChars 10 lexeme.toList 0
  if value < 0x8000000000000000 then some (Int64.ofNat value) else none

/-- The end of the text where a statement could begin. Each open block lacks its
brace, and what it belongs to is given up. -/
def finish (reader : Reader) (token : Token) : Reader :=
  let missing : SyntaxError := ⟨.unexpected (.punctuation .rightBrace) token.kind, token.position⟩
  { opened := []
    kept := (reader.opened.getLast?.map OpenBlock.around).getD reader.kept
    expects := .statement
    errors := List.replicate reader.opened.length missing ++ reader.errors }

/-- A token where an operand must begin. One that begins none is dropped. -/
def feedOperand (reader : Reader) (hole : Hole) (token : Token) : Reader :=
  match token.kind with
  | .integer =>
    match integer? token.lexeme with
    | some value => reader.await (.operator (.integer value) hole)
    | none => reader.blame (.tooLarge token.lexeme) token
  | .identifier => reader.await (.operator (.name token.lexeme) hole)
  | .keyword .trueWord => reader.await (.operator (.boolean true) hole)
  | .keyword .falseWord => reader.await (.operator (.boolean false) hole)
  | .punctuation .leftParen => reader.await (.operand (.group hole))
  | .punctuation .minus => reader.await (.operand (.negation hole))
  | .keyword .ifWord => reader.await (.conditionOpen (.operand hole))
  | .keyword .functionWord => reader.await (.parametersOpen (.operand hole))
  | .illegal => reader.blame (.illegal token.lexeme) token
  | .endOfInput => (reader.blame (.noOperand token.kind) token).finish token
  | _ => reader.blame (.noOperand token.kind) token

/-- An `if` whose last block is closed. -/
def completeIf (reader : Reader) (value : Expr) : IfSite → Reader
  | .statement => reader.keep (.expression value)
  | .operand hole => reader.await (.operator value hole)

/-- A function whose body is closed. -/
def completeFunction (reader : Reader) (parameters : List String) (body : Block) :
    FunctionSite → Reader
  | .statement name => reader.keep (.function name parameters body)
  | .operand hole => reader.await (.operator (.function parameters body) hole)

/-- The innermost open list becomes the block of its owner. -/
def close (reader : Reader) (block : OpenBlock) (outer : List OpenBlock) : Reader :=
  let body := reader.kept.reverse
  let around : Reader := { reader with opened := outer, kept := block.around }
  match block.owner with
  | .consequence condition site => around.await (.elseWord condition body site)
  | .alternative condition consequence site =>
    around.completeIf (.ifElse condition consequence body) site
  | .body parameters site => around.completeFunction parameters body site

/-- A token where a statement may begin. A lone semicolon is an empty statement. -/
def feedStatement (reader : Reader) (token : Token) : Reader :=
  match token.kind with
  | .punctuation .semicolon => reader.await .statement
  | .keyword .varWord => reader.await .variableName
  | .keyword .ifWord => reader.await (.conditionOpen .statement)
  | .keyword .functionWord => reader.await .functionName
  | .keyword .returnWord => reader.await (.operand .result)
  | .keyword .exitWord => reader.await (.operand .exitCode)
  | .punctuation .rightBrace =>
    match reader.opened with
    | [] => reader.blame (.noOperand token.kind) token
    | block :: outer => reader.close block outer
  | .endOfInput => reader.finish token
  | _ => reader.feedOperand .statement token

/-- A token that cannot go on what was read is blamed, and a statement may begin
with it. -/
def refuse (reader : Reader) (expected : Kind) (token : Token) : Reader :=
  (reader.blame (.unexpected expected token.kind) token).feedStatement token

/-- One kind of token goes on, and every other is refused. -/
def expect (reader : Reader) (kind : Kind) (next : Expectation) (token : Token) : Reader :=
  if token.kind = kind then reader.await next else reader.refuse kind token

/-- Opens a block behind a left brace. -/
def expectBlock (reader : Reader) (owner : BlockOwner) (token : Token) : Reader :=
  if token.kind = .punctuation .leftBrace then
    { reader with opened := ⟨owner, reader.kept⟩ :: reader.opened, kept := [], expects := .statement }
  else reader.refuse (.punctuation .leftBrace) token

/-- A token that begins no operator and no call ends the expression `value`. All
pending operators take it, and what they stand in decides about the token. -/
def settle (reader : Reader) (token : Token) (value : Expr) : Hole → Reader
  | .right op left outer => reader.settle token (.binary op left value) outer
  | .negation outer => reader.settle token value.negation outer
  | .group outer => reader.expect (.punctuation .rightParen) (.operator value outer) token
  | .argument callee earlier outer =>
    if token.kind = .punctuation .comma then
      reader.await (.operand (.argument callee (value :: earlier) outer))
    else
      reader.expect (.punctuation .rightParen)
        (.operator (.call callee (value :: earlier).reverse) outer) token
  | .statementCondition =>
    reader.expect (.punctuation .rightParen) (.consequenceOpen value .statement) token
  | .condition outer =>
    reader.expect (.punctuation .rightParen) (.consequenceOpen value (.operand outer)) token
  | .statement => (reader.keep (.expression value)).feedStatement token
  | .initializer name => (reader.keep (.var name value)).feedStatement token
  | .result => (reader.keep (.returns value)).feedStatement token
  | .exitCode => (reader.keep (.exits value)).feedStatement token

/-- A token behind the operand `value`. -/
def feedOperator (reader : Reader) (value : Expr) (hole : Hole) (token : Token) : Reader :=
  match token.kind with
  | .punctuation .leftParen => reader.await (.firstArgument value hole)
  | .punctuation sign =>
    match Operator.ofSign? sign with
    | some op => reader.await (.operand (hole.behind op value))
    | none => reader.settle token value hole
  | _ => reader.settle token value hole

/-- Reads one token. -/
def feed (reader : Reader) (token : Token) : Reader :=
  match reader.expects with
  | .statement => reader.feedStatement token
  | .variableName => reader.expect .identifier (.equalSign token.lexeme) token
  | .equalSign name => reader.expect (.punctuation .equal) (.operand (.initializer name)) token
  | .functionName =>
    if token.kind = .identifier then reader.await (.parametersOpen (.statement token.lexeme))
    else reader.expect (.punctuation .leftParen) (.firstParameter (.operand .statement)) token
  | .operand hole => reader.feedOperand hole token
  | .operator value hole => reader.feedOperator value hole token
  | .firstArgument callee hole =>
    if token.kind = .punctuation .rightParen then reader.await (.operator (.call callee []) hole)
    else reader.feedOperand (.argument callee [] hole) token
  | .conditionOpen site =>
    reader.expect (.punctuation .leftParen) (.operand site.conditionHole) token
  | .consequenceOpen condition site => reader.expectBlock (.consequence condition site) token
  | .elseWord condition consequence site =>
    if token.kind = .keyword .elseWord then
      reader.await (.alternativeOpen condition consequence site)
    else
      match site with
      | .statement =>
        (reader.keep (.expression (.ifThen condition consequence))).feedStatement token
      | .operand hole => reader.feedOperator (.ifThen condition consequence) hole token
  | .alternativeOpen condition consequence site =>
    reader.expectBlock (.alternative condition consequence site) token
  | .parametersOpen site => reader.expect (.punctuation .leftParen) (.firstParameter site) token
  | .firstParameter site =>
    if token.kind = .punctuation .rightParen then reader.await (.bodyOpen [] site)
    else reader.expect .identifier (.parametersEnd [token.lexeme] site) token
  | .nextParameter earlier site =>
    reader.expect .identifier (.parametersEnd (token.lexeme :: earlier) site) token
  | .parametersEnd earlier site =>
    if token.kind = .punctuation .comma then reader.await (.nextParameter earlier site)
    else reader.expect (.punctuation .rightParen) (.bodyOpen earlier site) token
  | .bodyOpen earlier site => reader.expectBlock (.body earlier.reverse site) token

end Reader

/-- What a text gives: the statements that could be read, and every error found. -/
structure Reading where
  program : Block
  errors : List SyntaxError

/-- Every token is fed once and in order. -/
def Reading.ofTokens (tokens : List Token) : Reading :=
  let reader := tokens.foldl Reader.feed Reader.start
  ⟨reader.kept.reverse, reader.errors.reverse⟩

def read (text : String) : Reading :=
  .ofTokens (scan text)

/-- The program that a text is, if nothing is wrong with it. -/
def parse (text : String) : Except (List SyntaxError) Block :=
  let reading := read text
  if reading.errors.isEmpty then .ok reading.program else .error reading.errors

end ScopeScript
