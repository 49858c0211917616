import PlaneFigure.Geometry.Measure

/-!
Lines. Each way to specify a line yields two of its points, and two lines given by points
intersect at a point of the first.
-/

namespace PlaneFigure.Geometry

/-- A line as it is specified. -/
inductive Line (S : Type)
  /-- Through `a` and `b`. -/
  | connecting (a b : Point S)
  /-- Through `x`, parallel to `ab`. -/
  | parallel (x a b : Point S)
  /-- Through `x`, perpendicular to `ab`. -/
  | perpendicular (x a b : Point S)
  /-- The perpendicular bisector of `ab`. -/
  | mediator (a b : Point S)
  /-- The internal bisector of the angle `abc`. -/
  | internalBisector (a b c : Point S)
  /-- The external bisector of the angle `abc`. -/
  | externalBisector (a b c : Point S)
  /-- Through `b`, at the angle `def` to `bc`. -/
  | atAngle (b c d e f : Point S)

/-- A line given by two of its points. -/
structure TwoPoints (S : Type) where
  p : Point S
  q : Point S

variable {S R μ : Type} [Number R] [Scalar S R μ]

namespace TwoPoints

def direction (l : TwoPoints S) : StateM μ (Point S) := l.q.sub l.p

/-- The number `m` in the equation `y = m · x + k` of the line. -/
def slope (l : TwoPoints S) : StateM μ S := do
  let d ← l.direction
  Scalar.div d.y d.x

/-- The number `k` in the equation `y = m · x + k` of the line. -/
def intercept (l : TwoPoints S) : StateM μ S := do
  Scalar.sub l.p.y (← Scalar.mul (← l.slope) l.p.x)

/-- The cross product of the directions: zero for parallel lines. -/
def det (l m : TwoPoints S) : StateM μ S := do
  let d ← l.direction
  let e ← m.direction
  Scalar.sub (← Scalar.mul d.x e.y) (← Scalar.mul d.y e.x)

/-- The point common to two lines that are not parallel. -/
def intersection (l m : TwoPoints S) : StateM μ (Point S) := do
  let d ← l.direction
  let e ← m.direction
  let w ← m.p.sub l.p
  let num ← Scalar.sub (← Scalar.mul w.x e.y) (← Scalar.mul w.y e.x)
  let t ← Scalar.div num (← l.det m)
  l.p.add (← d.smul t)

end TwoPoints

/-- The vertex `b`, and the midpoint of `c` and the point of the ray `ba` as far from `b` as `c`. -/
def bisector (a b c : Point S) : StateM μ (TwoPoints S) := do
  let ratio ← Scalar.div (← dist b c) (← dist b a)
  let x ← b.add (← (← a.sub b).smul ratio)
  return ⟨b, ← midpoint x c⟩

/-- Two points of a line. -/
def Line.points : Line S → StateM μ (TwoPoints S)
  | .connecting a b => return ⟨a, b⟩
  | .parallel x a b => return ⟨x, ← x.add (← b.sub a)⟩
  | .perpendicular x a b => return ⟨x, ← x.add (← quarterTurnLeft (← a.sub b))⟩
  | .mediator a b => do
    let m ← midpoint a b
    return ⟨m, ← m.add (← quarterTurnLeft (← a.sub b))⟩
  | .internalBisector a b c => bisector a b c
  | .externalBisector a b c => do
    let l ← bisector a b c
    return ⟨l.p, ← l.p.add (← quarterTurnLeft (← l.q.sub l.p))⟩
  | .atAngle b c d e f => do
    let θ ← angle d e f
    return ⟨b, ← b.add (← rotate θ (← c.sub b))⟩

end PlaneFigure.Geometry
