import PlaneFigure.Decimal.Reading

/-!
Numbers as the command line takes them.
-/

namespace PlaneFigure.CommandLine

/-- A sign in front of a text, and the text without it. -/
def readSign : List Char → Bool × List Char
  | '+' :: cs => (false, cs)
  | '-' :: cs => (true, cs)
  | cs => (false, cs)

/-- A number with any number of digits. -/
def readDigits? (cs : List Char) : Option Nat :=
  if cs.isEmpty || !cs.all Char.isDigit then none else some (Decimal.ofDigits cs)

/-- A natural number up to `greatest`, with or without a plus sign. -/
def readNat? (greatest : Nat) (text : String) : Option Nat := do
  let cs := match text.toList with
    | '+' :: cs => cs
    | cs => cs
  let n ← readDigits? cs
  if n ≤ greatest then some n else none

/-- The same, but zero may also have a minus sign. -/
def readSignedNat? (greatest : Nat) (text : String) : Option Nat := do
  let (negative, cs) := readSign text.toList
  let n ← readDigits? cs
  if n ≤ (if negative then 0 else greatest) then some n else none

/-- A double without sign: a numeral with at least one digit before its exponent, or a word for
what is infinite or not a number. -/
def readUnsignedReal? (cs : List Char) : Option Float :=
  let word := String.ofList (cs.map Char.toLower)
  if word = "inf" ∨ word = "infinity" then some (1.0 / 0.0)
  else if word = "nan" then some (0.0 / 0.0)
  else do
    let n ← Decimal.Numeral.read cs
    if n.whole.isEmpty && (n.fraction.getD []).isEmpty then none else some n.value

/-- A double. -/
def readReal? (text : String) : Option Float := do
  let (negative, cs) := readSign text.toList
  let x ← readUnsignedReal? cs
  return if negative then -x else x

end PlaneFigure.CommandLine
