import ScopeScript.CommandLine.Request
import ScopeScript.Evaluation.Outcome
import ScopeScript.Program.Sexpr
import ScopeScript.Reading.Reader
import ScopeScript.Text.Utf8

namespace ScopeScript

/-- What a command leaves behind: an exit status and the text of its two outputs. -/
structure Report where
  status : Nat
  out : String
  err : String
  deriving DecidableEq, Repr

namespace Report

def line (text : String) : String := text ++ "\n"

def lines (texts : List String) : String := String.join (texts.map line)

/-- Stops with a message behind what was already shown. -/
def failure (shown message : String) : Report := ⟨1, shown, line ("ERROR: " ++ message)⟩

/-- An exit of the program is a success of the command, whatever the code. -/
def ofOutcome (shown : String) : Outcome → Report
  | .completed completion => ⟨0, shown ++ line completion.display, ""⟩
  | .failed error => failure shown ("Runtime error: " ++ error.message ++ ": " ++ error.message)
  | .tooDeep => failure shown "Too many calls are open at once"

/-- The tokens are shown before the text is read as a program, and the tree before
it is run. Syntax errors are no failure of the command: they go where results go. -/
def ofText (depth : Nat) (request : Request) (text : String) : Report :=
  let tokens := if request.tokens then lines ((scan text).map Token.display) else ""
  match parse text with
  | .error errors =>
    ⟨1, tokens ++ line "parser errors:" ++ lines (errors.map SyntaxError.display), ""⟩
  | .ok program =>
    let shown := if request.tree then tokens ++ line program.listing else tokens
    ofOutcome shown (Machine.start.interpret depth program).1

/-- The content is `none` where the path names no file. -/
def ofContent (depth : Nat) (request : Request) : Option ByteArray → Report
  | none => failure "" ("Path does not exist or is not a valid file: " ++ request.file)
  | some bytes =>
    match decodeUtf8 bytes with
    | .error defect => failure "" ("Failed to decode unicode.: " ++ defect.message)
    | .ok text => ofText depth request text

def version : Report := ⟨0, line "salami-rs 0.1.0", ""⟩

/-- A command line that asks for nothing that can be done. -/
def usage : Report :=
  ⟨2, "", line "usage: [--tokens] [--print-ast] FILE, or --version"⟩

end Report

end ScopeScript
