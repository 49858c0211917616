import PlaneFigure.Geometry.Measure

/-!
Triangle centers by trilinear and barycentric coordinates. With sides `a`, `b`, `c` the Conway
values are `(b² + c² - a²) / 2` and its two cyclic variants.
-/

namespace PlaneFigure.Geometry

variable {S R μ : Type} [Number R] [Scalar S R μ]

/-- The three Conway values, in the order of the vertices. -/
def conway (a b c : Point S) : StateM μ (Sides S) := do
  let s ← sides a b c
  let a2 ← Scalar.sq s.a
  let b2 ← Scalar.sq s.b
  let c2 ← Scalar.sq s.c
  let sa ← Scalar.divConst (← Scalar.sub (← Scalar.add b2 c2) a2) 2.0
  let sb ← Scalar.divConst (← Scalar.sub (← Scalar.add c2 a2) b2) 2.0
  let sc ← Scalar.divConst (← Scalar.sub (← Scalar.add a2 b2) c2) 2.0
  return ⟨sa, sb, sc⟩

/-- The sum `wa · x + wb · y + wc · z`, from the left. -/
def weighted (wa wb wc x y z : S) : StateM μ S := do
  Scalar.add (← Scalar.add (← Scalar.mul wa x) (← Scalar.mul wb y)) (← Scalar.mul wc z)

/-- The point with trilinear coordinates `x : y : z` in the triangle `abc`. -/
def trilinear (a b c : Point S) (x y z : S) : StateM μ (Point S) := do
  let s ← sides a b c
  let wa ← Scalar.mul s.a x
  let wb ← Scalar.mul s.b y
  let wc ← Scalar.mul s.c z
  let total ← Scalar.add (← Scalar.add wa wb) wc
  let px ← Scalar.div (← weighted wa wb wc a.x b.x c.x) total
  let py ← Scalar.div (← weighted wa wb wc a.y b.y c.y) total
  return ⟨px, py⟩

/-- The point with barycentric coordinates `x : y : z` in the triangle `abc`. -/
def barycentric (a b c : Point S) (x y z : S) : StateM μ (Point S) := do
  let s ← sides a b c
  trilinear a b c (← Scalar.div x s.a) (← Scalar.div y s.b) (← Scalar.div z s.c)

def circumcenter (a b c : Point S) : StateM μ (Point S) := do
  let s ← sides a b c
  let k ← conway a b c
  let x ← Scalar.mul (← Scalar.sq s.a) k.a
  let y ← Scalar.mul (← Scalar.sq s.b) k.b
  let z ← Scalar.mul (← Scalar.sq s.c) k.c
  barycentric a b c x y z

def orthocenter (a b c : Point S) : StateM μ (Point S) := do
  let k ← conway a b c
  barycentric a b c (← Scalar.mul k.b k.c) (← Scalar.mul k.c k.a) (← Scalar.mul k.a k.b)

def centroid (a b c : Point S) : StateM μ (Point S) := do
  barycentric a b c (← Scalar.const 1.0) (← Scalar.const 1.0) (← Scalar.const 1.0)

def incenter (a b c : Point S) : StateM μ (Point S) := do
  trilinear a b c (← Scalar.const 1.0) (← Scalar.const 1.0) (← Scalar.const 1.0)

end PlaneFigure.Geometry
