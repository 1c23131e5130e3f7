namespace ScopeScript

/-- A place in a text: the line, counted from one, and how many characters of
that line have been passed. -/
structure Position where
  line : Nat
  column : Nat
  deriving DecidableEq, Repr

namespace Position

/-- Before the first character. -/
def start : Position := ⟨1, 0⟩

/-- The place behind `c`. Only a line feed begins a line; every other character
is one column wide. -/
def after (position : Position) (c : Char) : Position :=
  if c = '\n' then ⟨position.line + 1, 0⟩ else ⟨position.line, position.column + 1⟩

/-- The place behind a run of characters. -/
def afterAll (position : Position) (run : List Char) : Position :=
  run.foldl after position

def display (position : Position) : String :=
  position.line.repr ++ ":" ++ position.column.repr

@[simp] theorem afterAll_nil (position : Position) : position.afterAll [] = position := rfl

@[simp] theorem afterAll_cons (position : Position) (c : Char) (run : List Char) :
    position.afterAll (c :: run) = (position.after c).afterAll run := rfl

theorem afterAll_append (position : Position) (run more : List Char) :
    position.afterAll (run ++ more) = (position.afterAll run).afterAll more :=
  List.foldl_append

end Position

end ScopeScript
