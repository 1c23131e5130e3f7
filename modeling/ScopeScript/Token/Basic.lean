import ScopeScript.Token.Kind
import ScopeScript.Token.Position

namespace ScopeScript

/-- A piece of a text that is read as one. Its position is the one behind its
first character; the end of a text has no characters and stands behind all of them. -/
structure Token where
  kind : Kind
  lexeme : String
  position : Position
  deriving DecidableEq, Repr

/-- One line of a token listing. -/
def Token.display (token : Token) : String :=
  token.position.display ++ " " ++ token.kind.name ++ " '" ++ token.lexeme ++ "'"

end ScopeScript
