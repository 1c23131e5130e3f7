import ScopeScript.Token.Basic

namespace ScopeScript

/-- What can be wrong with a token where it stands. -/
inductive Fault
  | unexpected (expected found : Kind)
  | noOperand (found : Kind)
  | illegal (lexeme : String)
  | tooLarge (lexeme : String)
  deriving DecidableEq, Repr

/-- A fault and the position of the token that has it. -/
structure SyntaxError where
  fault : Fault
  position : Position
  deriving DecidableEq, Repr

def Fault.message : Fault → String
  | .unexpected expected found =>
    "expected next token to be `" ++ expected.spelling ++ "`, got `" ++ found.spelling ++ "` instead"
  | .noOperand found => "no prefix parse function for `" ++ found.spelling ++ "` found"
  | .illegal lexeme => "illegal token `" ++ lexeme ++ "`"
  | .tooLarge lexeme => "could not parse \"" ++ lexeme ++ "\" as integer"

/-- One line of an error listing. -/
def SyntaxError.display (error : SyntaxError) : String :=
  error.position.display ++ ": " ++ error.fault.message

/-- How many errors a text has, in words. -/
def SyntaxError.count (errors : List SyntaxError) : String :=
  errors.length.repr ++ " parse error(s)"

end ScopeScript
