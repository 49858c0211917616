/-!
Decimal numerals: their grammar, and the double nearest to the number they denote.
-/

namespace PlaneFigure.Decimal

/-- The value of a list of decimal digits. -/
def ofDigits (ds : List Char) : Nat :=
  ds.foldl (fun n d => 10 * n + (d.toNat - '0'.toNat)) 0

/-- The double nearest to `digits * 10 ^ exponent`, ties to even. The binary logarithm of the digits
bounds the decimal one from both sides; where it shows that the number is far outside the range of
doubles, the power is not computed. -/
def nearest (digits : Nat) (exponent : Int) : Float :=
  let low := exponent + (digits.log2 * 30102 / 100000 : Nat)
  let high := exponent + ((digits.log2 + 1) * 30103 / 100000 : Nat) + 1
  if digits = 0 then 0.0
  else if 310 < low then 1.0 / 0.0
  else if high < -330 then 0.0
  else Float.ofScientific digits (exponent < 0) exponent.natAbs

/-- A numeral taken apart: the digits before the point, those after it if there is a point, and the
exponent if there is one. -/
structure Numeral where
  whole : List Char
  fraction : Option (List Char)
  exponent : Option Int
  deriving DecidableEq, Repr

/-- An exponent: an optional sign and at least one digit. -/
def readExponent (cs : List Char) : Option Int :=
  let (negative, ds) := match cs with
    | '-' :: ds => (true, ds)
    | '+' :: ds => (false, ds)
    | ds => (false, ds)
  if ds.isEmpty || !ds.all Char.isDigit then none
  else some (if negative then -(ofDigits ds : Int) else ofDigits ds)

/-- Take an unsigned numeral apart. -/
def Numeral.read (cs : List Char) : Option Numeral :=
  let whole := cs.takeWhile Char.isDigit
  let (fraction, rest) := match cs.dropWhile Char.isDigit with
    | '.' :: rest => (some (rest.takeWhile Char.isDigit), rest.dropWhile Char.isDigit)
    | rest => (none, rest)
  match rest with
  | [] => some ⟨whole, fraction, none⟩
  | e :: rest =>
    if e = 'e' ∨ e = 'E' then (readExponent rest).map (⟨whole, fraction, some ·⟩) else none

/-- The nearest double. -/
def Numeral.value (n : Numeral) : Float :=
  let fraction := n.fraction.getD []
  nearest (ofDigits (n.whole ++ fraction)) (n.exponent.getD 0 - fraction.length)

end PlaneFigure.Decimal
