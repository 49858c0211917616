/-!
Bytes: what arguments, the names of files and their contents consist of. They are a text in UTF-8, or
none; where they are shown or recorded as a text all the same, there are replacement characters in
place of what encodes no character.
-/

namespace PlaneFigure

abbrev Bytes := List UInt8

namespace Bytes

/-- A text in UTF-8. -/
def ofString (s : String) : Bytes := s.toList.flatMap String.utf8EncodeChar

/-- The character in place of bytes that encode none. -/
def replacement : Char := '\uFFFD'

/-- A character of several bytes that has begun. -/
structure Begun where
  /-- The least byte with which it goes on. -/
  low : Nat
  /-- The greatest byte with which it goes on. -/
  high : Nat
  /-- How many bytes are due after that one. -/
  more : Nat
  /-- The digits of the character so far. -/
  code : Nat
  deriving DecidableEq, Repr

/-- What a byte begins. The bounds of the second byte exclude characters with too many bytes,
surrogates, and what is beyond the last character. -/
def Begun.ofFirst? (b : Nat) : Option Begun :=
  if b < 0xC2 then none
  else if b < 0xE0 then some ⟨0x80, 0xBF, 0, b - 0xC0⟩
  else if b < 0xF0 then
    some ⟨if b = 0xE0 then 0xA0 else 0x80, if b = 0xED then 0x9F else 0xBF, 1, b - 0xE0⟩
  else if b < 0xF5 then
    some ⟨if b = 0xF0 then 0x90 else 0x80, if b = 0xF4 then 0x8F else 0xBF, 2, b - 0xF0⟩
  else none

/-- The characters that are complete with a byte, and the one that has begun then, if nothing has begun
before. -/
def first (b : UInt8) : List Char × Option Begun :=
  if b.toNat < 0x80 then ([Char.ofNat b.toNat], none)
  else match Begun.ofFirst? b.toNat with
    | none => ([replacement], none)
    | some begun => ([], some begun)

/-- The same if a character has begun. One that is broken off is replaced as a whole. -/
def Begun.next (s : Begun) (b : UInt8) : List Char × Option Begun :=
  if s.low ≤ b.toNat ∧ b.toNat ≤ s.high then
    let code := s.code * 64 + (b.toNat - 0x80)
    match s.more with
    | 0 => ([Char.ofNat code], none)
    | n + 1 => ([], some ⟨0x80, 0xBF, n, code⟩)
  else
    let (cs, s) := first b
    (replacement :: cs, s)

/-- The characters of a text in UTF-8, with replacements for everything else. -/
def decode : Option Begun → Bytes → List Char
  | none, [] => []
  | some _, [] => [replacement]
  | none, b :: rest =>
    let (cs, s) := first b
    cs ++ decode s rest
  | some s, b :: rest =>
    let (cs, s) := s.next b
    cs ++ decode s rest

/-- Bytes as a text, with replacements for what is none. -/
def lossy (b : Bytes) : String := String.ofList (decode none b)

/-- The text that bytes encode, if they encode one. -/
def text? (b : Bytes) : Option String :=
  let s := lossy b
  if ofString s = b then some s else none

end Bytes

end PlaneFigure
