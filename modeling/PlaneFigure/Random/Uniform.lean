import PlaneFigure.Decimal.Layout
import PlaneFigure.Number

/-!
Numbers drawn uniformly from a range, the ends included. A random word is read as a fraction below
one, stretched to the length of the range and shifted to its lower end.
-/

namespace PlaneFigure

/-- The numbers from `low` to `high`. -/
structure Range (R : Type) where
  low : R
  high : R
  deriving DecidableEq, Repr

/-- Numbers that can be drawn from a range. -/
class Uniform (R : Type) where
  /-- The number that a random word selects. -/
  draw : Range R → UInt64 → R
  /-- Whether the range is short enough to draw from. -/
  drawable : Range R → Bool
  /-- The range as it is written in messages. -/
  text : Range R → String

namespace Random

/-- The greatest fraction that a random word is read as. -/
def greatestFraction : Float := 1.0 - 2.220446049250313080847263336181640625e-16

/-- The first 52 bits of a word as a fraction: the bits of a double from one to two, less one. -/
def fraction (word : UInt64) : Float :=
  Float.ofBits ((word >>> 12) ||| 0x3FF0000000000000) - 1.0

/-- The stretching factor before it is fitted. -/
def stretch (range : Range Float) : Float := (range.high - range.low) / greatestFraction

/-- The greatest double, among those whose bits are at most the given ones, that does not stretch
the greatest fraction beyond the range. -/
def fit (range : Range Float) : Nat → Float
  | 0 => 0.0
  | bits + 1 =>
    let scale := Float.ofBits (UInt64.ofNat (bits + 1))
    if scale * greatestFraction + range.low > range.high then fit range bits else scale

/-- The ends of a range are written without exponent. -/
def endLayout : Decimal.Layout := ⟨-400, 400, false⟩

end Random

/-- Doubles are drawn with 52 random bits. -/
instance : Uniform Float where
  draw range word :=
    let scale := Random.fit range (Random.stretch range).toBits.toNat
    Random.fraction word * scale + range.low
  drawable range := (Random.stretch range).isFinite
  text range :=
    "[" ++ Random.endLayout.render range.low ++ ", " ++ Random.endLayout.render range.high ++ "]"

end PlaneFigure
