import PlaneFigure.Proofs.Number.Exact
import PlaneFigure.Proofs.Draft.Natural
import PlaneFigure.Proofs.Geometry.Calculation
import PlaneFigure.Proofs.Geometry.Triangle

/-!
Centers of triangles in exact arithmetic. The side lengths by which the constructions divide cancel.
What remains is a barycenter, and it is defined exactly where the triangle is not degenerate.
-/

namespace PlaneFigure

/-- A point with real coordinates in exact arithmetic. -/
def Point.exact (p : Point ℝ) : Point Exact := p.map .real

def Point.IsReal (p : Point Exact) : Prop := p.x.IsReal ∧ p.y.IsReal

theorem Point.isReal_iff {p : Point Exact} : p.IsReal ↔ ∃ q : Point ℝ, p = q.exact := by
  obtain ⟨x, y⟩ := p
  constructor
  · rintro ⟨⟨u, rfl⟩, v, rfl⟩
    exact ⟨⟨u, v⟩, rfl⟩
  · rintro ⟨q, h⟩
    cases h
    exact ⟨⟨_, rfl⟩, _, rfl⟩

theorem Point.isReal_exact (q : Point ℝ) : q.exact.IsReal := isReal_iff.mpr ⟨q, rfl⟩

theorem Point.map_toReal {p : Point Exact} (h : p.IsReal) : (p.map Exact.toReal).map .real = p := by
  obtain ⟨q, rfl⟩ := isReal_iff.mp h
  rfl

namespace Exact

open PlaneFigure.Geometry

variable {a b c : Point ℝ}

theorem calculate_sum_exact (xs : List ℝ) :
    calculate (Scalar.sum (xs.map real)) = real xs.sum := by
  cases xs with
  | nil => exact literal_zero
  | cons x xs =>
      rw [List.map_cons, calculate_sum_cons, List.sum_cons]
      induction xs generalizing x with
      | nil => rw [List.sum_nil, add_zero]; rfl
      | cons y xs ih => rw [List.map_cons, List.foldl_cons, real_add, ih, List.sum_cons, add_assoc]

theorem calculate_sqDist_exact (a b : Point ℝ) :
    calculate (sqDist a.exact b.exact) = real (a.quadrance b) := by
  rw [calculate_sqDist, Point.quadrance, pow_two, pow_two]
  rfl

theorem calculate_dist_exact (a b : Point ℝ) :
    calculate (dist a.exact b.exact) = real √(a.quadrance b) := by
  rw [calculate_dist, calculate_sqDist_exact, real_sqrt (Point.quadrance_nonneg ..)]

theorem calculate_midpoint_exact (a b : Point ℝ) :
    calculate (midpoint a.exact b.exact) =
      Point.exact ⟨(a.x + b.x) / 2, (a.y + b.y) / 2⟩ := by
  have hhalf : (0.5 : Exact) = real 2⁻¹ := by norm_num
  simp only [calculate_midpoint, hhalf, div_eq_mul_inv]
  rfl

theorem calculate_sides_exact (a b c : Point ℝ) :
    calculate (sides a.exact b.exact c.exact) =
      ⟨real √(b.quadrance c), real √(c.quadrance a), real √(a.quadrance b)⟩ := by
  rw [calculate_sides, calculate_dist_exact, calculate_dist_exact, calculate_dist_exact]

theorem mul_self_side (p q : Point ℝ) : √(p.quadrance q) * √(p.quadrance q) = p.quadrance q :=
  Real.mul_self_sqrt (p.quadrance_nonneg q)

theorem calculate_conway_exact (a b c : Point ℝ) :
    calculate (conway a.exact b.exact c.exact) =
      ⟨real (Point.dot b a c a), real (Point.dot c b a b), real (Point.dot a c b c)⟩ := by
  simp only [calculate_conway, calculate_sides_exact, real_mul, real_add, real_sub, mul_self_side,
    literal_two, real_div two_ne_zero]
  congr 2 <;> unfold Point.quadrance Point.dot <;> ring

/-- The division by a side is undone. -/
theorem mul_div_side {l w : ℝ} (hl : l ≠ 0) : real l * (real w / real l) = real w := by
  rw [real_div hl, real_mul, mul_div_cancel₀ w hl]

/-- The sides of three points that are apart do not vanish, so no division by them fails. -/
theorem calculate_barycentric_of_ne (hab : a ≠ b) (hbc : b ≠ c) (hca : c ≠ a) {x y z s : ℝ}
    (hs : x + y + z = s) (hne : s ≠ 0) :
    calculate (barycentric a.exact b.exact c.exact (real x) (real y) (real z)) =
      (Point.barycenter a b c x y z).exact := by
  subst hs
  simp only [calculate_barycentric, calculate_trilinear, calculate_sides_exact,
    mul_div_side (Point.side_pos hbc).ne', mul_div_side (Point.side_pos hca).ne',
    mul_div_side (Point.side_pos hab).ne']
  simp only [Point.exact, Point.map, real_mul, real_add, real_div hne]
  rfl

theorem calculate_barycentric_exact (h : Point.doubleArea a b c ≠ 0) {x y z s : ℝ}
    (hs : x + y + z = s) (hne : s ≠ 0) :
    calculate (barycentric a.exact b.exact c.exact (real x) (real y) (real z)) =
      (Point.barycenter a b c x y z).exact := by
  have h' := (Point.doubleArea_rotate a b c).trans_ne h
  exact calculate_barycentric_of_ne (Point.ne_of_doubleArea h) (Point.ne_of_doubleArea h')
    (Point.ne_of_doubleArea ((Point.doubleArea_rotate b c a).trans_ne h')) hs hne

/-- A barycenter is defined only if everything that it is computed from is, and the weights do not
cancel out. -/
theorem isReal_barycentric {a b c : Point Exact} {x y z : Exact}
    (h : (calculate (barycentric a b c x y z)).IsReal) :
    ∃ (p q r : Point ℝ) (u v w : ℝ), a = p.exact ∧ b = q.exact ∧ c = r.exact ∧
      x = real u ∧ y = real v ∧ z = real w ∧ u + v + w ≠ 0 := by
  rw [calculate_barycentric, calculate_trilinear] at h
  obtain ⟨hx, hy⟩ := h
  simp only [isReal_div, isReal_add, isReal_mul] at hx hy
  -- the numerators tell of the points and the weights, the divisor that the weights do not cancel out
  obtain ⟨⟨⟨⟨⟨-, ⟨u, rfl⟩, la, hla, hsa⟩, hax⟩, ⟨-, ⟨v, rfl⟩, lb, hlb, hsb⟩, hbx⟩,
    ⟨-, ⟨w, rfl⟩, lc, hlc, hsc⟩, hcx⟩, s, hs, htotal⟩ := hx
  obtain ⟨⟨⟨⟨-, hay⟩, -, hby⟩, -, hcy⟩, -⟩ := hy
  obtain ⟨p, rfl⟩ := Point.isReal_iff.mp ⟨hax, hay⟩
  obtain ⟨q, rfl⟩ := Point.isReal_iff.mp ⟨hbx, hby⟩
  obtain ⟨r, rfl⟩ := Point.isReal_iff.mp ⟨hcx, hcy⟩
  refine ⟨p, q, r, u, v, w, rfl, rfl, rfl, rfl, rfl, rfl, ?_⟩
  rw [hsa, hsb, hsc, mul_div_side hla, mul_div_side hlb, mul_div_side hlc, real_add, real_add,
    real.injEq] at htotal
  rwa [htotal]

/-- The circumcenter is computed in every triangle that is not degenerate. -/
theorem calculate_circumcenter_exact (h : Point.doubleArea a b c ≠ 0) :
    calculate (circumcenter a.exact b.exact c.exact) = (Point.circumcenter a b c).exact := by
  simp only [calculate_circumcenter, calculate_sides_exact, calculate_conway_exact, real_mul,
    mul_self_side]
  exact calculate_barycentric_exact h (Point.circumcenter_weights a b c) (by positivity)

/-- The orthocenter is computed in every triangle that is not degenerate. -/
theorem calculate_orthocenter_exact (h : Point.doubleArea a b c ≠ 0) :
    calculate (orthocenter a.exact b.exact c.exact) = (Point.orthocenter a b c).exact := by
  simp only [calculate_orthocenter, calculate_conway_exact, real_mul]
  exact calculate_barycentric_exact h (Point.orthocenter_weights a b c) (pow_ne_zero 2 h)

/-- The circumcenter is defined nowhere else. -/
theorem doubleArea_ne_zero_of_circumcenter {a b c : Point Exact}
    (h : (calculate (circumcenter a b c)).IsReal) :
    ∃ p q r : Point ℝ, a = p.exact ∧ b = q.exact ∧ c = r.exact ∧ Point.doubleArea p q r ≠ 0 := by
  rw [calculate_circumcenter] at h
  obtain ⟨p, q, r, u, v, w, rfl, rfl, rfl, hu, hv, hw, hsum⟩ := isReal_barycentric h
  refine ⟨p, q, r, rfl, rfl, rfl, fun hzero => hsum ?_⟩
  simp only [calculate_sides_exact, calculate_conway_exact, real_mul, mul_self_side,
    real.injEq] at hu hv hw
  rw [← hu, ← hv, ← hw, Point.circumcenter_weights, hzero]
  ring

end Exact

end PlaneFigure
