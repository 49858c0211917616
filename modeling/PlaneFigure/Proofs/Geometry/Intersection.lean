import PlaneFigure.Proofs.Geometry.Center

/-!
Where lines meet, in exact arithmetic. The intersection of two lines that are not parallel lies on
both; so that of two altitudes is the orthocenter.
-/

namespace PlaneFigure

namespace Point

variable (a b p q r s x : Point ℝ)

/-- The point where the line through `p` and `q` meets the line through `r` and `s`. -/
noncomputable def meet : Point ℝ :=
  let t := cross r p s r / cross q p s r
  ⟨p.x + (q.x - p.x) * t, p.y + (q.y - p.y) * t⟩

/-- A second point on the perpendicular to `ab` through `x`. -/
def upright : Point ℝ := ⟨x.x + -(a.y - b.y), x.y + (a.x - b.x)⟩

theorem cross_meet_left : cross p (meet p q r s) q (meet p q r s) = 0 := by
  unfold cross meet
  ring

variable {a b p q r s x}

theorem cross_meet_right (h : cross q p s r ≠ 0) :
    cross r (meet p q r s) s (meet p q r s) = 0 := by
  have hmove : cross r p s r / cross q p s r * cross q p s r = cross r p s r := div_mul_cancel₀ _ h
  unfold meet
  -- all that matters of the quotient is what its product with the divisor is
  generalize cross r p s r / cross q p s r = t at hmove
  unfold cross at *
  linear_combination -hmove

/-- A point is seen from the foot of a perpendicular at a right angle if it is on it. -/
theorem dot_upright (h : cross x p (upright a b x) p = 0) : dot p x a b = 0 := by
  unfold cross upright at h
  unfold dot
  linear_combination -h

/-- Two altitudes of a triangle are not parallel. -/
theorem cross_upright {c : Point ℝ} (h : doubleArea a b c ≠ 0) :
    cross (upright b c a) a (upright c a b) b ≠ 0 := by
  have harea : cross (upright b c a) a (upright c a b) b = doubleArea a b c := by
    unfold cross upright doubleArea cross
    ring
  rwa [harea]

/-- Two altitudes meet in the orthocenter. -/
theorem meet_upright {c : Point ℝ} (h : doubleArea a b c ≠ 0) :
    meet a (upright b c a) b (upright c a b) = orthocenter a b c := by
  have hrotate := (doubleArea_rotate a b c).trans_ne h
  have ha := dot_upright (cross_meet_left a (upright b c a) b (upright c a b))
  have hb := dot_upright (cross_meet_right (cross_upright h))
  have horthoa := dot_orthocenter h
  have horthob := dot_orthocenter hrotate
  rw [orthocenter_rotate] at horthob
  -- both points are on both altitudes, which fixes them along two sides
  refine ext_of_dot ((doubleArea_rotate b c a).trans_ne hrotate) ?_ ?_
  · unfold dot at *
    linear_combination -hb - horthob
  · unfold dot at *
    linear_combination ha + horthoa

end Point

namespace Exact

open PlaneFigure.Geometry

variable {p q r s : Point ℝ}

theorem calculate_intersection_exact (h : Point.cross q p s r ≠ 0) :
    calculate (TwoPoints.intersection ⟨p.exact, q.exact⟩ ⟨r.exact, s.exact⟩) =
      (Point.meet p q r s).exact := by
  have hdiv : real (Point.cross r p s r) / real (Point.cross q p s r) =
      real (Point.cross r p s r / Point.cross q p s r) := real_div h
  rw [calculate_intersection]
  change (⟨real p.x + real (q.x - p.x) * (real (Point.cross r p s r) / real (Point.cross q p s r)),
    real p.y + real (q.y - p.y) * (real (Point.cross r p s r) / real (Point.cross q p s r))⟩ :
      Point Exact) = _
  rw [hdiv]
  rfl

theorem calculate_connecting (a b : Point Exact) :
    calculate (Line.connecting a b).points = ⟨a, b⟩ :=
  rfl

theorem calculate_perpendicular_exact (x a b : Point ℝ) :
    calculate (Line.perpendicular x.exact a.exact b.exact).points =
      ⟨x.exact, (Point.upright a b x).exact⟩ :=
  rfl

end Exact

end PlaneFigure
