import PlaneFigure.Geometry.Circle

/-!
Residuals of relations: scalars that vanish exactly where the relation holds.
-/

namespace PlaneFigure.Geometry

variable {S R μ : Type} [Number R] [Scalar S R μ]

/-- The dot product of `a - b` and `c - d`: zero where the two are perpendicular. -/
def perpResidual (a b c d : Point S) : StateM μ S := do
  Scalar.add
    (← Scalar.mul (← Scalar.sub a.x b.x) (← Scalar.sub c.x d.x))
    (← Scalar.mul (← Scalar.sub a.y b.y) (← Scalar.sub c.y d.y))

/-- The cross product of `a - b` and `c - d`: zero where the two are parallel. -/
def paraResidual (a b c d : Point S) : StateM μ S := do
  Scalar.sub
    (← Scalar.mul (← Scalar.sub a.x b.x) (← Scalar.sub c.y d.y))
    (← Scalar.mul (← Scalar.sub a.y b.y) (← Scalar.sub c.x d.x))

/-- The difference of the squared lengths of `ab` and `cd`. -/
def congResidual (a b c d : Point S) : StateM μ S := do
  Scalar.sub (← sqDist a b) (← sqDist c d)

/-- Twice the signed area of `abc`. -/
def collResidual (a b c : Point S) : StateM μ S := do
  Scalar.add
    (← Scalar.add
      (← Scalar.mul a.x (← Scalar.sub b.y c.y))
      (← Scalar.mul b.x (← Scalar.sub c.y a.y)))
    (← Scalar.mul c.x (← Scalar.sub a.y b.y))

/-- The distance of `m` from the midpoint of `ab`. -/
def midpResidual (m a b : Point S) : StateM μ S := do
  dist m (← midpoint a b)

/-- How far along one axis `p` lies outside the interval from `low` to `high`: the product of the
two differences where it is positive, else `zero`. -/
def gap (zero p low high : S) : StateM μ S := do
  Scalar.larger zero (← Scalar.mul (← Scalar.sub p low) (← Scalar.sub p high))

/-- The gaps of `x`, by axis, to the segment `ab` shortened by a fifth at either end. -/
def betweenResiduals (x a b : Point S) : StateM μ (S × S) := do
  let a' ← a.add (← (← b.sub a).scale 0.2)
  let b' ← b.add (← (← a.sub b).scale 0.2)
  let zero ← Scalar.const 0.0
  return (← gap zero x.x a'.x b'.x, ← gap zero x.y a'.y b'.y)

/-- The distance of `x` from the center of a circle, less the radius. -/
def onCircleResidual (x : Point S) (circle : Circle S) : StateM μ S := do
  let k ← circle.centerRadius
  Scalar.sub (← dist x k.center) k.radius

end PlaneFigure.Geometry
