import PlaneFigure.Draft.Construction
import PlaneFigure.Draft.Relation
import PlaneFigure.Draft.Table
import PlaneFigure.Geometry.Line

/-!
Geometry on numbers. Numbers need no memory, so what a construction computes from them is a value,
for which there is a closed form.
-/

namespace PlaneFigure

/-- The result of a computation on numbers. -/
def calculate {α : Type} (act : StateM Unit α) : α := (act ()).1

theorem calculate_bind {α β : Type} (act : StateM Unit α) (next : α → StateM Unit β) :
    calculate (act >>= next) = calculate (next (calculate act)) :=
  (rfl)

open PlaneFigure.Geometry

variable {R : Type} [Number R] (a b c d m o p : Point R)

theorem calculate_midpoint :
    calculate (midpoint a b) = ⟨(a.x + b.x) * 0.5, (a.y + b.y) * 0.5⟩ :=
  rfl

theorem calculate_reflect :
    calculate (reflect m a) = ⟨a.x + (m.x - a.x) * 2.0, a.y + (m.y - a.y) * 2.0⟩ :=
  rfl

theorem calculate_sqDist :
    calculate (sqDist a b) = (a.x - b.x) * (a.x - b.x) + (a.y - b.y) * (a.y - b.y) :=
  rfl

theorem calculate_dist : calculate (dist a b) = Number.sqrt (calculate (sqDist a b)) :=
  rfl

theorem calculate_sides :
    calculate (sides a b c) =
      ⟨calculate (dist b c), calculate (dist c a), calculate (dist a b)⟩ :=
  rfl

/-! ### Centers -/

theorem calculate_conway :
    calculate (conway a b c) =
      let s := calculate (sides a b c)
      ⟨(s.b * s.b + s.c * s.c - s.a * s.a) / 2.0, (s.c * s.c + s.a * s.a - s.b * s.b) / 2.0,
        (s.a * s.a + s.b * s.b - s.c * s.c) / 2.0⟩ :=
  rfl

theorem calculate_trilinear (x y z : R) :
    calculate (trilinear a b c x y z) =
      let s := calculate (sides a b c)
      ⟨(s.a * x * a.x + s.b * y * b.x + s.c * z * c.x) / (s.a * x + s.b * y + s.c * z),
        (s.a * x * a.y + s.b * y * b.y + s.c * z * c.y) / (s.a * x + s.b * y + s.c * z)⟩ :=
  rfl

theorem calculate_barycentric (x y z : R) :
    calculate (barycentric a b c x y z) =
      let s := calculate (sides a b c)
      calculate (trilinear a b c (x / s.a) (y / s.b) (z / s.c)) := by
  simp only [barycentric, calculate_bind]
  rfl

theorem calculate_circumcenter :
    calculate (circumcenter a b c) =
      let s := calculate (sides a b c)
      let k := calculate (conway a b c)
      calculate (barycentric a b c (s.a * s.a * k.a) (s.b * s.b * k.b) (s.c * s.c * k.c)) := by
  simp only [circumcenter, calculate_bind]
  rfl

theorem calculate_orthocenter :
    calculate (orthocenter a b c) =
      let k := calculate (conway a b c)
      calculate (barycentric a b c (k.b * k.c) (k.c * k.a) (k.a * k.b)) := by
  simp only [orthocenter, calculate_bind]
  rfl

/-! ### Angles -/

theorem calculate_clampUnit (x : R) :
    calculate (clampUnit x) = -Number.max (-Number.max x (-1.0)) (-1.0) :=
  rfl

theorem calculate_cosAngle :
    calculate (cosAngle a b c) =
      let s := calculate (sides a b c)
      (s.a * s.a + s.c * s.c - s.b * s.b) / (s.a * s.c * 2.0) :=
  rfl

theorem calculate_angle :
    calculate (angle a b c) =
      Number.acos (calculate (clampUnit (calculate (cosAngle a b c)))) :=
  rfl

theorem calculate_rotate (θ : R) :
    calculate (rotate θ p) = ⟨Number.cos θ * p.x + -Number.sin θ * p.y,
      Number.sin θ * p.x + Number.cos θ * p.y⟩ :=
  rfl

/-! ### Lines -/

theorem calculate_bisector :
    calculate (bisector a b c) =
      let k := calculate (dist b c) / calculate (dist b a)
      ⟨b, calculate (midpoint ⟨b.x + (a.x - b.x) * k, b.y + (a.y - b.y) * k⟩ c)⟩ :=
  rfl

theorem calculate_mediator :
    calculate (Line.mediator a b).points =
      let m := calculate (midpoint a b)
      ⟨m, ⟨m.x + -(a.y - b.y), m.y + (a.x - b.x)⟩⟩ :=
  rfl

theorem calculate_externalBisector :
    calculate (Line.externalBisector a b c).points =
      let l := calculate (bisector a b c)
      ⟨l.p, ⟨l.p.x + -(l.q.y - l.p.y), l.p.y + (l.q.x - l.p.x)⟩⟩ :=
  rfl

theorem calculate_atAngle :
    calculate (Line.atAngle a b c d m).points =
      let v := calculate (rotate (calculate (angle c d m)) ⟨b.x - a.x, b.y - a.y⟩)
      ⟨a, ⟨a.x + v.x, a.y + v.y⟩⟩ :=
  rfl

theorem calculate_intersection (l k : TwoPoints R) :
    calculate (l.intersection k) =
      let t := ((k.p.x - l.p.x) * (k.q.y - k.p.y) - (k.p.y - l.p.y) * (k.q.x - k.p.x)) /
        calculate (l.det k)
      ⟨l.p.x + (l.q.x - l.p.x) * t, l.p.y + (l.q.y - l.p.y) * t⟩ :=
  rfl

/-! ### Residuals -/

theorem calculate_perpResidual :
    calculate (perpResidual a b c d) = (a.x - b.x) * (c.x - d.x) + (a.y - b.y) * (c.y - d.y) :=
  rfl

theorem calculate_paraResidual :
    calculate (paraResidual a b c d) = (a.x - b.x) * (c.y - d.y) - (a.y - b.y) * (c.x - d.x) :=
  rfl

theorem calculate_congResidual :
    calculate (congResidual a b c d) = calculate (sqDist a b) - calculate (sqDist c d) :=
  rfl

theorem calculate_collResidual :
    calculate (collResidual a b c) = a.x * (b.y - c.y) + b.x * (c.y - a.y) + c.x * (a.y - b.y) :=
  rfl

theorem calculate_midpResidual :
    calculate (midpResidual m a b) = calculate (dist m (calculate (midpoint a b))) :=
  rfl

theorem calculate_betweenResiduals :
    calculate (betweenResiduals p a b) =
      (Number.max 0.0 ((p.x - (a.x + (b.x - a.x) * 0.2)) * (p.x - (b.x + (a.x - b.x) * 0.2))),
        Number.max 0.0 ((p.y - (a.y + (b.y - a.y) * 0.2)) * (p.y - (b.y + (a.y - b.y) * 0.2)))) :=
  rfl

theorem calculate_onCircleResidual_around :
    calculate (onCircleResidual p (.around o a)) =
      calculate (dist p o) - calculate (dist o a) :=
  rfl

theorem calculate_onCircleResidual_through :
    calculate (onCircleResidual p (.through a b c)) =
      let o := calculate (circumcenter a b c)
      calculate (dist p o) - calculate (dist o a) :=
  rfl

/-! ### Sums -/

theorem calculate_mapM {α β : Type} (f : α → StateM Unit β) (l : List α) :
    calculate (l.mapM f) = l.map fun a => calculate (f a) := by
  induction l with
  | nil =>
      rw [List.mapM_nil]
      rfl
  | cons a l ih =>
      rw [List.mapM_cons, calculate_bind, calculate_bind, ih]
      rfl

theorem calculate_sum_cons (x : R) (xs : List R) :
    calculate (Scalar.sum (x :: xs)) = xs.foldl (· + ·) x := by
  change calculate (xs.foldlM Scalar.add x) = _
  induction xs generalizing x with
  | nil => rfl
  | cons y xs ih =>
      rw [List.foldlM_cons, calculate_bind, ih]
      rfl

theorem calculate_total (t : LossTable R R) :
    calculate t.total =
      calculate (Scalar.sum (t.entries.map fun e => e.2.residual * e.2.residual * e.2.weight)) := by
  rw [LossTable.total, calculate_bind, calculate_mapM]
  rfl

end PlaneFigure
