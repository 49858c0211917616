import PlaneFigure.Canvas
import PlaneFigure.Draft.Table
import PlaneFigure.Geometry.Measure

/-!
Polygons that are nearly regular. The first side is fixed; a walk then turns by a sampled angle and
takes a sampled length at every vertex, and comes back nearly to where it began. What is missing,
in position and in angles, is left to three losses.
-/

namespace PlaneFigure

namespace Range

variable {R : Type} [Number R]

/-- From minus one to one. -/
def unit : Range R := ⟨-1.0, 1.0⟩

/-- From minus one half to one half. -/
def half : Range R := ⟨-0.5, 0.5⟩

end Range

namespace Placement

open PlaneFigure.Geometry

variable {S R μ : Type} [Number R] [Uniform R] [Scalar S R μ]

/-- The interior angle of a regular polygon. -/
def interior (n : Nat) : R := (Number.ofNat n - 2.0) * Number.pi / Number.ofNat n

/-- How far a sampled angle can be from the regular one. -/
def spread (n : Nat) : R := Number.pi / Number.ofNat n

/-- The length of the fixed side. -/
def gaugeSide : R := 4.0

def gaugeStart : StateM μ (Point S) := Point.const (-2.0) 0.0

def gaugeEnd : StateM μ (Point S) := Point.const 2.0 0.0

/-- The sampled angle at vertex `i` of `n`. -/
def sampledAngle (n i : Nat) : Canvas.Attempt R μ S := do
  let z ← Canvas.sample ("polygon_angle_z_" ++ toString i) Range.half
  (do Scalar.addConst (← Scalar.mulConst (← Scalar.tanh (← Scalar.mulConst z 0.2)) (spread n))
        (interior n) : StateM μ S)

/-- The sampled deviation of the length of the side that follows vertex `i`. -/
def sampledScale (i : Nat) : Canvas.Attempt R μ S := do
  let z ← Canvas.sample ("polygon_scale_z_" ++ toString i) Range.unit
  (do Scalar.mulConst (← Scalar.tanh (← Scalar.mulConst z 0.2)) 0.5 : StateM μ S)

/-- An interior angle, and the deviation of the length of the side that follows. -/
structure Turn (S : Type) where
  angle : S
  scale : S

/-- The vertex after the side from `a` to `b`: the side reversed, turned clockwise by the angle and
stretched to its length. -/
def nextVertex (a b : Point S) (t : Turn S) : StateM μ (Point S) := do
  let x ← b.add (← rotate (← Scalar.neg t.angle) (← a.sub b))
  let length ← Scalar.mulConst (← Scalar.addConst t.scale 1.0) gaugeSide
  let factor ← Scalar.div length (← dist x b)
  let p ← b.add (← (← x.sub b).smul factor)
  p.simplify .trig

/-- Vertices in the order of a walk, and the two ends of its last side. -/
structure Walk (S : Type) where
  vertices : List (Point S)
  lastStart : Point S
  lastEnd : Point S

/-- The walk that begins with the side from `a` to `b`. -/
def walk (a b : Point S) : List (Turn S) → StateM μ (Walk S)
  | [] => return ⟨[a, b], a, b⟩
  | t :: turns => do
    let w ← walk b (← nextVertex a b t) turns
    return { w with vertices := a :: w.vertices }

/-- What is missing for a closed polygon with the sampled angles: in the sum of the angles, at the
end of the walk, and in the angle at the first vertex, which the walk does not use. -/
def closingLosses (n : Nat) (first : S) (others : List S) (a b : Point S) (w : Walk S) :
    StateM μ (List (String × Loss S R)) := do
  let sum ← Scalar.subConst (← Scalar.sum (first :: others))
    ((Number.ofNat n - 2.0) * Number.pi)
  let closure ← dist a w.lastEnd
  let angle ← Scalar.sub first (← Geometry.angle w.lastStart a b)
  return [("polygon-angle-sum", ⟨sum, 0.1⟩), ("polygon-first-eq-last", ⟨closure, 0.01⟩),
    ("polygon-first-angle-eq-sampled", ⟨angle, 0.01⟩)]

/-- A polygon with at least three vertices. All angles are sampled before the first length. -/
def placePolygon (names : List String) : Canvas.Attempt R μ (Addition S R) := do
  let n := names.length
  let others := List.range' 1 (n - 1)
  let firstAngle ← sampledAngle n 0
  let angles ← others.mapM (sampledAngle n)
  let _ ← sampledScale (S := S) 0
  let scales ← others.mapM sampledScale
  (do
    let a ← gaugeStart
    let b ← gaugeEnd
    let w ← walk a b (angles.zipWith Turn.mk scales)
    return { points := names.zip w.vertices
             losses := ← closingLosses n firstAngle angles a b w } : StateM μ (Addition S R))

end Placement

end PlaneFigure
