import PlaneFigure.Placement.Triangle

/-!
Placements: samplers applied to names. A sampler is first checked against its names; a placement
that passed is then carried out, variable by variable.
-/

namespace PlaneFigure

/-- How names are placed. -/
inductive Placement
  | free (names : List String)
  /-- A polygon with at least three vertices. -/
  | polygon (names : List String)
  | triangle (shape : TriangleShape) (corner : Corner) (a b c : String)
  deriving DecidableEq, Repr

namespace Placement

def ofPolygon (names : List String) : Except DraftError Placement :=
  if names.length < 3 then throw (.fewVertices names.length) else return .polygon names

/-- A triangle of which nothing is asked is a polygon, with as many vertices as there are names. -/
def ofSampler : Sampler → List String → Except DraftError Placement
  | .uniform, names => return .free names
  | .polygon, names => ofPolygon names
  | .triangle shape, names =>
    if shape.isPlain then ofPolygon names
    else match names with
      | [a, b, c] => return .triangle shape (← apexCorner shape a b c) a b c
      | _ => throw (.notThreePoints names.length)

variable {S R μ : Type} [Number R] [Uniform R] [Scalar S R μ]

/-- A point with a variable for each coordinate. -/
def freePoint (name : String) : Canvas.Attempt R μ (Point S) := do
  let x ← Canvas.sample (name ++ "x") Range.unit
  let y ← Canvas.sample (name ++ "y") Range.unit
  return ⟨x, y⟩

def freePoints (names : List String) : Canvas.Attempt R μ (Addition S R) :=
  return { points := ← names.mapM fun name => return (name, ← freePoint name) }

/-- Place the points, as long as no variable is refused. -/
def place : Placement → Canvas.Attempt R μ (Addition S R)
  | free names => freePoints names
  | polygon names => placePolygon names
  | triangle shape corner a b c => placeTriangle shape corner a b c

/-- Place the points; none if a variable is refused. -/
def run (p : Placement) : StateM (Canvas R μ) (Addition S R) := do
  match ← p.place.run with
  | .ok a => return a
  | .error _ => return {}

end Placement

end PlaneFigure
