/-!
The numbers figures are made of. Constructions are written once over any carrier with these
operations; no law is assumed of them, so the same definitions run on doubles and can be read
over the real numbers.
-/

namespace PlaneFigure

/-- A carrier of numbers with the arithmetic, the elementary functions and the tests that
constructions use. Literals are decimal fractions. -/
class Number (R : Type) extends Add R, Sub R, Mul R, Div R, Neg R, OfScientific R where
  ofNat : Nat → R
  pi : R
  sqrt : R → R
  sin : R → R
  cos : R → R
  acos : R → R
  tanh : R → R
  exp : R → R
  abs : R → R
  /-- The larger operand; an operand that is not a number is ignored. -/
  max : R → R → R
  /-- The smaller operand; an operand that is not a number is ignored. -/
  min : R → R → R
  lt : R → R → Bool
  le : R → R → Bool
  eq : R → R → Bool
  isFinite : R → Bool

/-- The larger of two doubles, ignoring an operand that is not a number. -/
def largerDouble (a b : Float) : Float :=
  if a.isNaN then b else if b.isNaN then a else if a < b then b else a

/-- The smaller of two doubles, ignoring an operand that is not a number. -/
def smallerDouble (a b : Float) : Float :=
  if a.isNaN then b else if b.isNaN then a else if b < a then b else a

/-- Double precision numbers. -/
instance : Number Float where
  ofNat := Float.ofNat
  pi := 3.141592653589793
  sqrt := Float.sqrt
  sin := Float.sin
  cos := Float.cos
  acos := Float.acos
  tanh := Float.tanh
  exp := Float.exp
  abs := Float.abs
  max := largerDouble
  min := smallerDouble
  lt a b := decide (a < b)
  le a b := decide (a ≤ b)
  eq a b := a == b
  isFinite := Float.isFinite

namespace Number

variable {R : Type} [Number R]

/-- The logistic function. -/
@[inline] def sigmoid (x : R) : R := 1.0 / (1.0 + exp (-x))

/-- The sum of a list, added from the left. -/
def sum (xs : List R) : R := xs.foldl (· + ·) 0.0

/-- The length of the vector `(x, y)`. -/
def hypotenuse (x y : R) : R := sqrt (x * x + y * y)

end Number

end PlaneFigure
