/-!
Finite doubles as exact numbers `mantissa * 2 ^ exponent`, compared with decimal fractions in
natural arithmetic.
-/

namespace PlaneFigure.Decimal

/-- A power of two. -/
def twos (n : Nat) : Nat := Nat.pow 2 n

/-- A power of ten. -/
def tens (n : Nat) : Nat := Nat.pow 10 n

/-- The number `digits * 10 ^ exponent`. -/
structure Fraction where
  digits : Nat
  exponent : Int
  deriving DecidableEq, Repr

/-- The absolute value of a finite double. -/
structure Magnitude where
  mantissa : Nat
  exponent : Int
  /-- The double below is half as far away as the double above. -/
  halfBelow : Bool
  deriving DecidableEq, Repr

/-- The absolute value of the finite double with these bits. -/
def Magnitude.ofBits (bits : UInt64) : Magnitude :=
  let field := ((bits >>> 52) &&& 0x7FF).toNat
  let low := (bits &&& 0xFFFFFFFFFFFFF).toNat
  if field = 0 then ⟨low, -1074, false⟩
  else ⟨0x10000000000000 + low, (field : Int) - 1075, low = 0 ∧ 1 < field⟩

/-- Numerator and denominator. -/
def Magnitude.ratio (x : Magnitude) : Nat × Nat :=
  (x.mantissa * twos x.exponent.toNat, twos (-x.exponent).toNat)

/-- The ratio `r` times `10 ^ k`. -/
def scaled (r : Nat × Nat) (k : Int) : Nat × Nat :=
  (r.1 * tens k.toNat, r.2 * tens (-k).toNat)

/-- The exponent `k` of the leading digit of a positive number: `10 ^ k ≤ x < 10 ^ (k + 1)`. The
binary logarithm gives it up to one. -/
def Magnitude.leading (x : Magnitude) : Int :=
  let guess := Int.fdiv (((x.mantissa.log2 : Int) + x.exponent) * 30103) 100000
  let r := scaled x.ratio (-(guess + 1))
  if r.2 ≤ r.1 then guess + 1 else guess

/-- The quotient rounded to the nearest integer, a tie to the even one. -/
def roundDiv (num den : Nat) : Nat :=
  let q := num / den
  let r := num % den
  if 2 * r < den then q
  else if den < 2 * r then q + 1
  else if q % 2 = 0 then q else q + 1

end PlaneFigure.Decimal
