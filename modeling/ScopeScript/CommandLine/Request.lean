namespace ScopeScript

/-- What to do with a file: run it, and before that show its tokens or its tree. -/
structure Request where
  tokens : Bool
  tree : Bool
  file : String
  deriving DecidableEq, Repr

/-- What a command line asks for. -/
inductive Command
  | version
  | run (request : Request)
  deriving DecidableEq, Repr

/-- The arguments understood so far. -/
structure Arguments where
  tokens : Bool
  tree : Bool
  file : Option String
  deriving DecidableEq, Repr

namespace Arguments

def none : Arguments := ⟨false, false, .none⟩

/-- The file may be named once, and its name has at least one character. -/
def withFile? (arguments : Arguments) (file : String) : Option Arguments :=
  if arguments.file.isSome || file.isEmpty then .none else some { arguments with file := some file }

/-- Arguments that are all file names. -/
def withFiles? (arguments : Arguments) : List String → Option Arguments
  | [] => some arguments
  | file :: more =>
    match arguments.withFile? file with
    | some next => next.withFiles? more
    | .none => .none

/-- Nothing can be run without a file. -/
def command? (arguments : Arguments) : Option Command :=
  arguments.file.map fun file => .run ⟨arguments.tokens, arguments.tree, file⟩

/-- Asks for the version, by its long name or as the first letter of short flags. -/
def asksVersion (argument : String) : Bool :=
  argument == "--version" || "-V".toList.isPrefixOf argument.toList

/-- Begins like a flag. A single dash does not: it is a file name. -/
def looksLikeFlag (argument : String) : Bool :=
  argument != "-" && "-".toList.isPrefixOf argument.toList

/-- Reads arguments from left to right. The first wrong one settles that the line
is refused, and a request for the version before it settles that it is granted.
Behind a double dash there are no flags. -/
def read? (arguments : Arguments) : List String → Option Command
  | [] => arguments.command?
  | "--" :: files => (arguments.withFiles? files).bind command?
  | "--tokens" :: more =>
    if arguments.tokens then .none else { arguments with tokens := true }.read? more
  | "--print-ast" :: more =>
    if arguments.tree then .none else { arguments with tree := true }.read? more
  | argument :: more =>
    if asksVersion argument then some .version
    else if looksLikeFlag argument then .none
    else
      match arguments.withFile? argument with
      | some next => next.read? more
      | .none => .none

end Arguments

/-- What a command line asks for, if it is well formed. -/
def Command.ofArguments? (arguments : List String) : Option Command :=
  Arguments.none.read? arguments

end ScopeScript
