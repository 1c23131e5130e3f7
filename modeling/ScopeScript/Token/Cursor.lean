import ScopeScript.Text.Alphabetic
import ScopeScript.Text.Blank
import ScopeScript.Token.Basic

namespace ScopeScript

/-- The unread end of a text and the place where it begins. -/
structure Cursor where
  rest : List Char
  position : Position
  deriving DecidableEq, Repr

namespace Cursor

def ofString (text : String) : Cursor := ⟨text.toList, .start⟩

/-- Moves behind the longest run of characters of one class. -/
def skip (cursor : Cursor) (class? : Char → Bool) : Cursor :=
  ⟨cursor.rest.dropWhile class?, cursor.position.afterAll (cursor.rest.takeWhile class?)⟩

end Cursor

/-- Which characters a token takes after its first one: digits after a digit,
letters after a letter, and nothing after anything else. -/
def continues (first : Char) : Char → Bool :=
  if first.isDigit then Char.isDigit else if isAlphabetic first then isAlphabetic else fun _ => false

/-- The kind of a token by its first character and, for words, its lexeme. -/
def Kind.ofLexeme (first : Char) (lexeme : String) : Kind :=
  match Punctuation.ofCharacter? first with
  | some sign => .punctuation sign
  | none =>
    if first.isDigit then .integer else if isAlphabetic first then .ofWord lexeme else .illegal

namespace Cursor

/-- The next token and the text behind it. At the end of the text the answer is
the end token and a cursor that gives it again. -/
def next (cursor : Cursor) : Token × Cursor :=
  let start := cursor.skip isBlank
  match start.rest with
  | [] => (⟨.endOfInput, "", start.position⟩, start)
  | first :: rest =>
    let inside : Cursor := ⟨rest, start.position.after first⟩
    let lexeme := String.ofList (first :: rest.takeWhile (continues first))
    (⟨.ofLexeme first lexeme, lexeme, inside.position⟩, inside.skip (continues first))

theorem length_dropWhile_le {α : Type} (class? : α → Bool) (run : List α) :
    (run.dropWhile class?).length ≤ run.length :=
  (List.dropWhile_sublist class?).length_le

/-- Only the end of the text is read without leaving less of it. -/
theorem next_shorter {cursor : Cursor} (more : cursor.next.1.kind ≠ .endOfInput) :
    cursor.next.2.rest.length < cursor.rest.length := by
  have blanks := length_dropWhile_le isBlank cursor.rest
  unfold next skip at *
  dsimp only at *
  split at more
  · exact absurd rfl more
  · rename_i first rest begins
    rw [begins] at blanks
    have run := length_dropWhile_le (continues first) rest
    simp only [List.length_cons] at blanks
    dsimp only at run ⊢
    omega

/-- The tokens already read, newest first, and then all others up to the end token. -/
def collect (cursor : Cursor) (read : List Token) : List Token :=
  let step := cursor.next
  if step.1.kind = .endOfInput then (step.1 :: read).reverse else step.2.collect (step.1 :: read)
termination_by cursor.rest.length
decreasing_by exact next_shorter ‹_›

/-- The tokens behind the cursor do not depend on those before it. -/
theorem collect_eq (cursor : Cursor) (read : List Token) :
    cursor.collect read = read.reverse ++ cursor.collect [] := by
  by_cases ended : cursor.next.1.kind = .endOfInput
  · rw [collect, collect.eq_1 cursor []]
    simp [ended]
  · rw [collect, collect.eq_1 cursor []]
    simp only [ended, if_false]
    rw [collect_eq cursor.next.2 (cursor.next.1 :: read), collect_eq cursor.next.2 [cursor.next.1]]
    simp
termination_by cursor.rest.length
decreasing_by all_goals exact next_shorter ended

/-- The first `count` tokens, the end token as often as it takes. -/
def pull (cursor : Cursor) : Nat → List Token
  | 0 => []
  | count + 1 => cursor.next.1 :: cursor.next.2.pull count

end Cursor

/-- All tokens of a text. The end token is the last and occurs nowhere else. -/
def scan (text : String) : List Token :=
  (Cursor.ofString text).collect []

end ScopeScript
