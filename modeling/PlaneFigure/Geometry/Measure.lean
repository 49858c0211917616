import PlaneFigure.Point

/-!
Midpoints, distances, rotations and angles.
-/

namespace PlaneFigure.Geometry

variable {S R μ : Type} [Number R] [Scalar S R μ]

def midpoint (a b : Point S) : StateM μ (Point S) := do
  (← a.add b).scale 0.5

/-- The end of a segment whose other end is `a` and whose midpoint is `m`. -/
def reflect (m a : Point S) : StateM μ (Point S) := do
  a.add (← (← m.sub a).scale 2.0)

/-- The square of the distance. -/
def sqDist (a b : Point S) : StateM μ S := do
  Scalar.add (← Scalar.sq (← Scalar.sub a.x b.x)) (← Scalar.sq (← Scalar.sub a.y b.y))

def dist (a b : Point S) : StateM μ S := do
  Scalar.sqrt (← sqDist a b)

/-- The dot product of two vectors. -/
def dot (a b : Point S) : StateM μ S := do
  Scalar.add (← Scalar.mul a.x b.x) (← Scalar.mul a.y b.y)

/-- The matrix with the two given rows, applied to a vector. -/
def applyRows (rows : Point S × Point S) (p : Point S) : StateM μ (Point S) :=
  return ⟨← dot rows.1 p, ← dot rows.2 p⟩

/-- The rows of the counterclockwise rotation by `θ`. -/
def rotation (θ : S) : StateM μ (Point S × Point S) := do
  let c ← Scalar.cos θ
  let s ← Scalar.sin θ
  return (⟨c, ← Scalar.neg s⟩, ⟨s, c⟩)

def rotate (θ : S) (p : Point S) : StateM μ (Point S) := do
  applyRows (← rotation θ) p

/-- A quarter turn clockwise. -/
def quarterTurnRight (p : Point S) : StateM μ (Point S) :=
  return ⟨p.y, ← Scalar.neg p.x⟩

/-- A quarter turn counterclockwise. -/
def quarterTurnLeft (p : Point S) : StateM μ (Point S) :=
  return ⟨← Scalar.neg p.y, p.x⟩

/-- The sides of a triangle, each opposite the vertex it is named for. -/
structure Sides (S : Type) where
  a : S
  b : S
  c : S

def sides (a b c : Point S) : StateM μ (Sides S) :=
  return ⟨← dist b c, ← dist c a, ← dist a b⟩

/-- The nearest number between `-1` and `1`; `-1` for what is not a number. -/
def clampUnit (x : S) : StateM μ S := do
  let low ← Scalar.larger x (← Scalar.const (-1.0))
  Scalar.neg (← Scalar.larger (← Scalar.neg low) (← Scalar.const (-1.0)))

/-- The cosine of the angle at `b` by the law of cosines. -/
def cosAngle (a b c : Point S) : StateM μ S := do
  let s ← sides a b c
  let num ← Scalar.sub (← Scalar.add (← Scalar.sq s.a) (← Scalar.sq s.c)) (← Scalar.sq s.b)
  let den ← Scalar.mulConst (← Scalar.mul s.a s.c) 2.0
  Scalar.div num den

/-- The angle at `b`, from `0` to `π`. The cosine is clamped, so that rounding on nearly flat
triangles never leaves the domain of the arc cosine. -/
def angle (a b c : Point S) : StateM μ S := do
  Scalar.acos (← clampUnit (← cosAngle a b c))

end PlaneFigure.Geometry
