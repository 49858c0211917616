import PlaneFigure.Geometry.Center

/-!
Circles. Each way to specify a circle yields its center and its radius.
-/

namespace PlaneFigure.Geometry

/-- A circle as it is specified. -/
inductive Circle (S : Type)
  /-- Through three points. -/
  | through (a b c : Point S)
  /-- Around `o`, through `a`. -/
  | around (o a : Point S)
  /-- Around `o`, with the distance of `x` and `y` as radius. -/
  | compass (o x y : Point S)
  /-- With the diameter `ab`. -/
  | diameter (a b : Point S)

structure CenterRadius (S : Type) where
  center : Point S
  radius : S

variable {S R μ : Type} [Number R] [Scalar S R μ]

def Circle.centerRadius : Circle S → StateM μ (CenterRadius S)
  | .through a b c => do
    let o ← circumcenter a b c
    return ⟨o, ← dist o a⟩
  | .around o a => return ⟨o, ← dist o a⟩
  | .compass o x y => return ⟨o, ← dist x y⟩
  | .diameter a b => do
    let o ← midpoint a b
    return ⟨o, ← dist o a⟩

end PlaneFigure.Geometry
