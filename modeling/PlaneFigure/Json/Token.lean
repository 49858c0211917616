import PlaneFigure.Decimal.Reading
import PlaneFigure.Json.Basic

/-!
The tokens of a document, and the lexer. Blanks separate tokens and mean nothing; a string denotes
its characters with all escapes resolved; a number must lie in the range of doubles.
-/

namespace PlaneFigure.Json

inductive Token
  | openArray | closeArray | openObject | closeObject | comma | colon
  /-- A document without parts, other than a string. -/
  | scalar (value : Json)
  | string (s : List Char)
  deriving Repr

def isBlank (c : Char) : Bool := c = ' ' || c = '\n' || c = '\t' || c = '\r'

/-- The value of a hexadecimal digit. -/
def hexDigit? (c : Char) : Option Nat :=
  if '0' ≤ c ∧ c ≤ '9' then some (c.toNat - '0'.toNat)
  else if 'a' ≤ c ∧ c ≤ 'f' then some (c.toNat - 'a'.toNat + 10)
  else if 'A' ≤ c ∧ c ≤ 'F' then some (c.toNat - 'A'.toNat + 10)
  else none

/-- The number that four hexadecimal digits denote. -/
def hex4? (a b c d : Char) : Option Nat := do
  return (((← hexDigit? a) * 16 + (← hexDigit? b)) * 16 + (← hexDigit? c)) * 16 + (← hexDigit? d)

/-- The character that a letter after a backslash stands for. -/
def escaped? : Char → Option Char
  | '"' => some '"'
  | '\\' => some '\\'
  | '/' => some '/'
  | 'b' => some '\x08'
  | 'f' => some '\x0c'
  | 'n' => some '\n'
  | 'r' => some '\r'
  | 't' => some '\t'
  | _ => none

/-- The character at a code point that is not half of a surrogate pair. -/
def scalarChar? (n : Nat) : Option Char :=
  if n < 0xD800 ∨ 0xDFFF < n then some (Char.ofNat n) else none

/-- The character of a surrogate pair. -/
def pairChar? (high low : Nat) : Option Char :=
  if 0xD800 ≤ high ∧ high ≤ 0xDBFF ∧ 0xDC00 ≤ low ∧ low ≤ 0xDFFF then
    some (Char.ofNat (0x10000 + (high - 0xD800) * 0x400 + (low - 0xDC00)))
  else none

/-- The characters up to the closing quote, and what follows it. Control characters must be
escaped; characters beyond the basic plane may be escaped as a surrogate pair. -/
def readString : List Char → Option (List Char × List Char)
  | [] => none
  | '"' :: rest => some ([], rest)
  | '\\' :: 'u' :: a :: b :: c :: d :: rest =>
    match (hex4? a b c d).bind scalarChar? with
    | some ch => (readString rest).map fun (s, rest) => (ch :: s, rest)
    | none =>
      match rest with
      | '\\' :: 'u' :: e :: f :: g :: h :: rest => do
        let ch ← pairChar? (← hex4? a b c d) (← hex4? e f g h)
        (readString rest).map fun (s, rest) => (ch :: s, rest)
      | _ => none
  | '\\' :: c :: rest => do
    let ch ← escaped? c
    (readString rest).map fun (s, rest) => (ch :: s, rest)
  | c :: rest =>
    if c = '\\' ∨ c.toNat < 0x20 then none
    else (readString rest).map fun (s, rest) => (c :: s, rest)

theorem readString_length {cs s rest : List Char} (h : readString cs = some (s, rest)) :
    rest.length < cs.length := by
  fun_induction readString cs generalizing s rest with
  | case1 => simp at h
  | case2 r => simp_all
  | case3 a b c d r ch _ ih =>
    obtain ⟨⟨s', r'⟩, hr, he⟩ := Option.map_eq_some_iff.mp h
    have := ih hr
    simp_all
    omega
  | case4 a b c d _ e f g h' r ih =>
    simp only [Option.bind_eq_bind, Option.bind_eq_some_iff] at h
    obtain ⟨_, _, _, _, _, _, hm⟩ := h
    obtain ⟨⟨s', r'⟩, hr, he⟩ := Option.map_eq_some_iff.mp hm
    have := ih hr
    simp_all
    omega
  | case5 => simp at h
  | case6 c r _ ih =>
    simp only [Option.bind_eq_bind, Option.bind_eq_some_iff] at h
    obtain ⟨_, _, hm⟩ := h
    obtain ⟨⟨s', r'⟩, hr, he⟩ := Option.map_eq_some_iff.mp hm
    have := ih hr
    simp_all
    omega
  | case7 => simp at h
  | case8 =>
    rename_i ih
    obtain ⟨⟨s', r'⟩, hr, he⟩ := Option.map_eq_some_iff.mp h
    have := ih hr
    simp_all
    omega

/-- Whether a numeral is one of the format: no superfluous leading zero, digits on both sides of a
point, and a value in the range of doubles. -/
def isNumber (cs : List Char) : Bool :=
  let unsigned := match cs with
    | '-' :: rest => rest
    | _ => cs
  match Decimal.Numeral.read unsigned with
  | none => false
  | some n =>
    !n.whole.isEmpty && (n.whole.length = 1 || n.whole.head? != some '0') &&
      n.fraction != some [] && n.value.isFinite

/-- The token that a run of letters, digits and signs is. -/
def wordToken? (cs : List Char) : Option Token :=
  if cs = ['n', 'u', 'l', 'l'] then some (.scalar .null)
  else if cs = ['t', 'r', 'u', 'e'] then some (.scalar (.bool true))
  else if cs = ['f', 'a', 'l', 's', 'e'] then some (.scalar (.bool false))
  else if isNumber cs then some (.scalar (.number (String.ofList cs)))
  else none

/-- Whether a character can be part of a word or a number. -/
def isWordChar (c : Char) : Bool :=
  c.isAlphanum || c = '-' || c = '+' || c = '.'

/-- The tokens of a text. -/
def tokens (text : List Char) : Option (List Token) :=
  match text with
  | [] => some []
  | '[' :: rest => (tokens rest).map (.openArray :: ·)
  | ']' :: rest => (tokens rest).map (.closeArray :: ·)
  | '{' :: rest => (tokens rest).map (.openObject :: ·)
  | '}' :: rest => (tokens rest).map (.closeObject :: ·)
  | ',' :: rest => (tokens rest).map (.comma :: ·)
  | ':' :: rest => (tokens rest).map (.colon :: ·)
  | '"' :: rest =>
    match _h : readString rest with
    | some (s, rest') => (tokens rest').map (.string s :: ·)
    | none => none
  | c :: rest =>
    if isBlank c then tokens rest
    else do
      let token ← wordToken? (c :: rest.takeWhile isWordChar)
      (tokens (rest.dropWhile isWordChar)).map (token :: ·)
termination_by text.length
decreasing_by
  any_goals exact Nat.lt_succ_self _
  · exact Nat.lt_succ_of_lt (readString_length _h)
  · exact Nat.lt_succ_of_le (List.dropWhile_suffix _).length_le

end PlaneFigure.Json
