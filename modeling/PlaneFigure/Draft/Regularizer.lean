import PlaneFigure.Draft.Table
import PlaneFigure.Geometry.Measure

/-!
Residuals on all points at once, which keep a figure small and its points apart.
-/

namespace PlaneFigure.Regularizer

variable {S R μ : Type} [Number R] [Scalar S R μ]

/-- The mean of scalars, of which there is at least one. -/
def mean (xs : List S) : StateM μ S := do
  Scalar.divConst (← Scalar.sum xs) (Number.ofNat xs.length)

/-- The mean distance from the origin. -/
def meanNorm (points : List (Point S)) : StateM μ S := do
  let origin ← Point.const 0.0 0.0
  mean (← points.mapM fun p => Geometry.dist p origin)

/-- Every two entries of a list, in order. -/
def pairs {α : Type} : List α → List (α × α)
  | [] => []
  | x :: xs => xs.map (x, ·) ++ pairs xs

/-- The mean of `1 / (1 + d²)` over the distances `d` of any two points. -/
def meanCloseness (points : List (Point S)) : StateM μ S := do
  let one ← Scalar.const 1.0
  mean (← (pairs points).mapM fun (p, q) => do
    Scalar.div one (← Scalar.addConst (← Geometry.sqDist p q) 1.0))

end PlaneFigure.Regularizer
