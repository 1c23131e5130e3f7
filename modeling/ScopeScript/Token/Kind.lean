namespace ScopeScript

/-- The thirteen characters that are tokens by themselves. -/
inductive Punctuation
  | equal
  | plus
  | minus
  | star
  | slash
  | semicolon
  | leftParen
  | rightParen
  | leftBrace
  | rightBrace
  | greater
  | less
  | comma
  deriving DecidableEq, Repr

namespace Punctuation

def all : List Punctuation :=
  [equal, plus, minus, star, slash, semicolon, leftParen, rightParen, leftBrace, rightBrace,
    greater, less, comma]

def character : Punctuation → Char
  | equal => '='
  | plus => '+'
  | minus => '-'
  | star => '*'
  | slash => '/'
  | semicolon => ';'
  | leftParen => '('
  | rightParen => ')'
  | leftBrace => '\x7b'
  | rightBrace => '\x7d'
  | greater => '>'
  | less => '<'
  | comma => ','

def name : Punctuation → String
  | equal => "Equal"
  | plus => "Plus"
  | minus => "Minus"
  | star => "Star"
  | slash => "Slash"
  | semicolon => "Semicolon"
  | leftParen => "LeftParen"
  | rightParen => "RightParen"
  | leftBrace => "LeftBrace"
  | rightBrace => "RightBrace"
  | greater => "Greater"
  | less => "Less"
  | comma => "Comma"

def ofCharacter? (c : Char) : Option Punctuation :=
  all.find? fun sign => sign.character == c

/-- No two signs share a character, so the character gives the sign back. -/
theorem ofCharacter?_character (sign : Punctuation) : ofCharacter? sign.character = some sign := by
  cases sign <;> rfl

theorem character_of_ofCharacter? {c : Char} {sign : Punctuation}
    (found : ofCharacter? c = some sign) : sign.character = c := by
  simpa using List.find?_some found

end Punctuation

/-- The words that are not names. -/
inductive Keyword
  | varWord
  | ifWord
  | elseWord
  | trueWord
  | falseWord
  | exitWord
  | functionWord
  | returnWord
  deriving DecidableEq, Repr

namespace Keyword

def all : List Keyword :=
  [varWord, ifWord, elseWord, trueWord, falseWord, exitWord, functionWord, returnWord]

def word : Keyword → String
  | varWord => "var"
  | ifWord => "if"
  | elseWord => "else"
  | trueWord => "true"
  | falseWord => "false"
  | exitWord => "exit"
  | functionWord => "gorlami"
  | returnWord => "dicocco"

def name : Keyword → String
  | varWord => "Var"
  | ifWord => "If"
  | elseWord => "Else"
  | trueWord => "True"
  | falseWord => "False"
  | exitWord => "Exit"
  | functionWord => "Function"
  | returnWord => "Return"

def ofWord? (word : String) : Option Keyword :=
  all.find? fun keyword => keyword.word == word

theorem ofWord?_word (keyword : Keyword) : ofWord? keyword.word = some keyword := by
  cases keyword <;> decide

end Keyword

/-- What a token is. -/
inductive Kind
  | endOfInput
  | illegal
  | punctuation (sign : Punctuation)
  | identifier
  | integer
  | keyword (word : Keyword)
  deriving DecidableEq, Repr

namespace Kind

/-- A word is a keyword or the name of something. -/
def ofWord (text : String) : Kind :=
  match Keyword.ofWord? text with
  | some reserved => .keyword reserved
  | none => .identifier

/-- The name under which tokens are listed. -/
def name : Kind → String
  | endOfInput => "EndOfInput"
  | illegal => "Illegal"
  | punctuation sign => sign.name
  | identifier => "Identifier"
  | integer => "Integer"
  | keyword word => word.name

/-- How error messages speak of the kind: by its spelling where it has one. -/
def spelling : Kind → String
  | endOfInput => "end of input"
  | illegal => "illegal"
  | punctuation sign => sign.character.toString
  | identifier => "identifier"
  | integer => "integer"
  | keyword word => word.word

end Kind

end ScopeScript
