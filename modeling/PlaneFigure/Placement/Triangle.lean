import PlaneFigure.Placement.Polygon
import PlaneFigure.Placement.Sampler

/-!
Triangles of a given shape. The base is fixed and only the apex varies; the vertex that the shape
singles out is the apex.
-/

namespace PlaneFigure

/-- From minus one to six fifths. -/
def Range.apex {R : Type} [Number R] : Range R := ⟨-1.0, 1.2⟩

/-- The place of a vertex among the three names of a triangle. -/
inductive Corner
  | first | second | third
  deriving DecidableEq, Repr

namespace Placement

/-- The corner that a shape singles out; the first if it singles out none. -/
def apexCorner (shape : TriangleShape) (a b c : String) : Except DraftError Corner :=
  match shape.vertex? with
  | none => return .first
  | some v =>
    if v = a then return .first
    else if v = b then return .second
    else if v = c then return .third
    else throw (.notAVertex v a b c)

variable {S R μ : Type} [Number R] [Uniform R] [Scalar S R μ]

/-- The least height of an apex, larger where an acute triangle is asked for. -/
def apexFloor (acute : Bool) : R := if acute then 1.1 else 0.4

/-- How far the apex lies from the middle of the base: nowhere in isosceles and equilateral
triangles. -/
def apexShift (shape : TriangleShape) : Canvas.Attempt R μ S :=
  if shape.iso.isSome || shape.equi then liftM (Scalar.const 0.0 : StateM μ S)
  else Canvas.sample "tri_x" Range.apex

/-- How high the apex lies over the base, when it is shifted by `x`: in right triangles, it is on
the circle over the base. -/
def apexHeight (shape : TriangleShape) (x : S) : Canvas.Attempt R μ S :=
  if shape.right.isSome then
    liftM (do Scalar.sqrt (← Scalar.sub (← Scalar.const 4.0) (← Scalar.sq x)) : StateM μ S)
  else if shape.equi then liftM (Scalar.const (2.0 * Number.sqrt 3.0) : StateM μ S)
  else do
    let z ← Canvas.sample "tri" Range.unit
    (do Scalar.addConst (← Scalar.mulConst (← Scalar.sigmoid z) 3.0) (apexFloor shape.acute) :
      StateM μ S)

/-- The apex of a triangle on the fixed base. -/
def apex (shape : TriangleShape) : Canvas.Attempt R μ (Point S) := do
  let x ← apexShift shape
  let y ← apexHeight shape x
  return ⟨x, y⟩

/-- A triangle whose apex is at the given corner. The ends of the base keep their places, but for
the one that gives its place to the apex: it takes the place of the first corner. -/
def placeTriangle (shape : TriangleShape) (corner : Corner) (a b c : String) :
    Canvas.Attempt R μ (Addition S R) := do
  let left ← (gaugeStart : StateM μ (Point S))
  let right ← (gaugeEnd : StateM μ (Point S))
  let top ← apex shape
  return { points := match corner with
    | .first => [(a, top), (b, left), (c, right)]
    | .second => [(a, left), (b, top), (c, right)]
    | .third => [(a, right), (b, left), (c, top)] }

end Placement

end PlaneFigure
