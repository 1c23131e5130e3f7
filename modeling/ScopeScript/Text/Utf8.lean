namespace ScopeScript

/-- Why bytes are not UTF-8. `index` counts the bytes of the well-formed part;
`size` counts the bytes after it that could still have begun a character. -/
inductive Utf8Defect
  | invalid (index size : Nat)
  | cutShort (index : Nat)
  deriving DecidableEq, Repr

/-- A character whose first bytes have been read. It owes `owed` more bytes,
the next of which lies between `low` and `high`. -/
structure PartialCharacter where
  value : Nat
  taken : Nat
  owed : Nat
  low : Nat
  high : Nat
  deriving DecidableEq, Repr

/-- What a first byte begins. The narrowed bounds after E0, ED, F0 and F4 rule
out overlong forms, surrogates and points above 10FFFF. -/
def PartialCharacter.ofFirst (byte : Nat) : Option PartialCharacter :=
  if byte < 0x80 then some ⟨byte, 1, 0, 0x80, 0xBF⟩
  else if byte < 0xC2 then none
  else if byte < 0xE0 then some ⟨byte - 0xC0, 1, 1, 0x80, 0xBF⟩
  else if byte = 0xE0 then some ⟨0, 1, 2, 0xA0, 0xBF⟩
  else if byte = 0xED then some ⟨0xD, 1, 2, 0x80, 0x9F⟩
  else if byte < 0xF0 then some ⟨byte - 0xE0, 1, 2, 0x80, 0xBF⟩
  else if byte = 0xF0 then some ⟨0, 1, 3, 0x90, 0xBF⟩
  else if byte < 0xF4 then some ⟨byte - 0xF0, 1, 3, 0x80, 0xBF⟩
  else if byte = 0xF4 then some ⟨4, 1, 3, 0x80, 0x8F⟩
  else none

/-- The character with one more of its bytes, if that byte may stand there. -/
def PartialCharacter.continue? (character : PartialCharacter) (byte : Nat) : Option PartialCharacter :=
  if character.low ≤ byte ∧ byte ≤ character.high then
    some ⟨character.value * 64 + (byte - 0x80), character.taken + 1, character.owed - 1, 0x80, 0xBF⟩
  else none

/-- Reads on between characters (`none`) or inside one. `index` counts the bytes
of the characters already read, which stand newest first in `read`. -/
def decodeFrom (index : Nat) (read : List Char) :
    Option PartialCharacter → List UInt8 → Except Utf8Defect (List Char)
  | none, [] => .ok read.reverse
  | some _, [] => .error (.cutShort index)
  | none, byte :: rest =>
    match PartialCharacter.ofFirst byte.toNat with
    | none => .error (.invalid index 1)
    | some character =>
      if character.owed = 0 then decodeFrom (index + 1) (Char.ofNat character.value :: read) none rest
      else decodeFrom index read (some character) rest
  | some begun, byte :: rest =>
    match begun.continue? byte.toNat with
    | none => .error (.invalid index begun.taken)
    | some character =>
      if character.owed = 0 then
        decodeFrom (index + character.taken) (Char.ofNat character.value :: read) none rest
      else decodeFrom index read (some character) rest

/-- The text that the bytes encode, or the first place where they encode none. -/
def decodeUtf8 (bytes : ByteArray) : Except Utf8Defect String :=
  (decodeFrom 0 [] none bytes.toList).map String.ofList

/-- The wording for a reader of the file. -/
def Utf8Defect.message : Utf8Defect → String
  | .invalid index size =>
    "invalid utf-8 sequence of " ++ size.repr ++ " bytes from index " ++ index.repr
  | .cutShort index => "incomplete utf-8 byte sequence from index " ++ index.repr

end ScopeScript
