import PlaneFigure.Proofs.Geometry.Center

/-!
What the relations mean in the plane. In exact arithmetic, the residuals of a relation vanish where
it holds, and nowhere else.
-/

namespace PlaneFigure

namespace Relation

/-- The relation between points of the Euclidean plane. -/
def Holds : Relation ℝ → Prop
  | perp a b c d => inner ℝ (a.toPlane - b.toPlane) (c.toPlane - d.toPlane) = 0
  | para a b c d => Point.cross a b c d = 0
  | cong a b c d => dist a.toPlane b.toPlane = dist c.toPlane d.toPlane
  | midp m a b => (2 : ℝ) • m.toPlane = a.toPlane + b.toPlane
  | coll a b c => Collinear ℝ {a.toPlane, b.toPlane, c.toPlane}
  -- each coordinate is between those of the ends, once these have moved a fifth towards each other
  | between p a b =>
    p.x ∈ Set.uIcc (a.x + (b.x - a.x) / 5) (b.x + (a.x - b.x) / 5) ∧
      p.y ∈ Set.uIcc (a.y + (b.y - a.y) / 5) (b.y + (a.y - b.y) / 5)
  | onCircle p o a => dist p.toPlane o.toPlane = dist o.toPlane a.toPlane
  -- the center of the circle through the first three points is as far from the fourth
  | concyclic a b c d => ¬ Collinear ℝ {a.toPlane, b.toPlane, c.toPlane} ∧
    ∃ o : Plane, dist a.toPlane o = dist b.toPlane o ∧ dist a.toPlane o = dist c.toPlane o ∧
      dist d.toPlane o = dist a.toPlane o

end Relation

namespace Exact

open PlaneFigure.Geometry

variable (a b c d m o p : Point ℝ)

theorem calculate_perpResidual_exact :
    calculate (perpResidual a.exact b.exact c.exact d.exact) = real (Point.dot a b c d) :=
  rfl

theorem calculate_paraResidual_exact :
    calculate (paraResidual a.exact b.exact c.exact d.exact) = real (Point.cross a b c d) :=
  rfl

theorem calculate_congResidual_exact :
    calculate (congResidual a.exact b.exact c.exact d.exact) =
      real (a.quadrance b - c.quadrance d) := by
  rw [calculate_congResidual, Point.quadrance, Point.quadrance, pow_two, pow_two, pow_two, pow_two]
  rfl

theorem calculate_collResidual_exact :
    calculate (collResidual a.exact b.exact c.exact) = real (Point.cross b a c a) := by
  have hcross : Point.cross b a c a =
      a.x * (b.y - c.y) + b.x * (c.y - a.y) + c.x * (a.y - b.y) := by
    unfold Point.cross
    ring
  rw [hcross]
  rfl

theorem calculate_midpResidual_exact :
    calculate (midpResidual m.exact a.exact b.exact) =
      real √(m.quadrance ⟨(a.x + b.x) / 2, (a.y + b.y) / 2⟩) := by
  rw [calculate_midpResidual, calculate_midpoint_exact, calculate_dist_exact]

/-- The gap of a coordinate between those of two points. -/
noncomputable def gap (p a b : ℝ) : ℝ :=
  max 0 ((p - (a + (b - a) / 5)) * (p - (b + (a - b) / 5)))

theorem calculate_betweenResiduals_exact :
    calculate (betweenResiduals p.exact a.exact b.exact) =
      (real (gap p.x a.x b.x), real (gap p.y a.y b.y)) := by
  have hfifth : (0.2 : Exact) = real 5⁻¹ := by norm_num
  simp only [calculate_betweenResiduals, literal_zero, hfifth, gap, div_eq_mul_inv]
  rfl

theorem calculate_onCircleResidual_around_exact :
    calculate (onCircleResidual p.exact (.around o.exact a.exact)) =
      real (√(p.quadrance o) - √(o.quadrance a)) := by
  rw [calculate_onCircleResidual_around, calculate_dist_exact, calculate_dist_exact]
  rfl

theorem calculate_onCircleResidual_through_exact (h : Point.doubleArea a b c ≠ 0) :
    calculate (onCircleResidual p.exact (.through a.exact b.exact c.exact)) =
      real (√(p.quadrance (Point.circumcenter a b c)) -
        √((Point.circumcenter a b c).quadrance a)) := by
  rw [calculate_onCircleResidual_through, calculate_circumcenter_exact h]
  dsimp only
  rw [calculate_dist_exact, calculate_dist_exact]
  rfl

section IsReal

variable {a b : Point Exact}

theorem isReal_sqDist : (calculate (sqDist a b)).IsReal ↔ a.IsReal ∧ b.IsReal := by
  simp only [calculate_sqDist, isReal_add, isReal_mul, isReal_sub, Point.IsReal]
  tauto

theorem isReal_dist : (calculate (dist a b)).IsReal ↔ a.IsReal ∧ b.IsReal := by
  constructor
  · intro h
    rw [calculate_dist, isReal_sqrt] at h
    obtain ⟨x, -, hx⟩ := h
    exact isReal_sqDist.mp ⟨x, hx⟩
  · rintro ⟨ha, hb⟩
    obtain ⟨p, rfl⟩ := Point.isReal_iff.mp ha
    obtain ⟨q, rfl⟩ := Point.isReal_iff.mp hb
    rw [calculate_dist_exact]
    exact isReal_real

theorem isReal_midpoint : (calculate (midpoint a b)).IsReal ↔ a.IsReal ∧ b.IsReal := by
  simp only [calculate_midpoint, isReal_add, isReal_mul, isReal_ofScientific, Point.IsReal]
  tauto

theorem isReal_onCircleResidual_through {c d : Point Exact}
    (h : (calculate (onCircleResidual d (.through a b c))).IsReal) :
    d.IsReal ∧ ∃ p q r : Point ℝ, a = p.exact ∧ b = q.exact ∧ c = r.exact ∧
      Point.doubleArea p q r ≠ 0 := by
  rw [calculate_onCircleResidual_through] at h
  simp only [isReal_sub, isReal_dist] at h
  obtain ⟨⟨hd, hcenter⟩, -⟩ := h
  exact ⟨hd, doubleArea_ne_zero_of_circumcenter hcenter⟩

end IsReal

variable {a b c d m o p}

/-- A product of two differences is not positive just between the two. -/
theorem gap_eq_zero {p a b : ℝ} :
    gap p a b = 0 ↔ p ∈ Set.uIcc (a + (b - a) / 5) (b + (a - b) / 5) := by
  rw [gap, max_eq_left_iff, Set.mem_uIcc, mul_nonpos_iff]
  simp only [sub_nonneg, sub_nonpos]
  tauto

theorem sqrt_quadrance_sub_eq_zero :
    √(a.quadrance b) - √(c.quadrance d) = 0 ↔
      dist a.toPlane b.toPlane = dist c.toPlane d.toPlane := by
  rw [Point.dist_toPlane, Point.dist_toPlane, sub_eq_zero]

theorem sqrt_midpoint_eq_zero :
    √(m.quadrance ⟨(a.x + b.x) / 2, (a.y + b.y) / 2⟩) = 0 ↔
      (2 : ℝ) • m.toPlane = a.toPlane + b.toPlane := by
  rw [Real.sqrt_eq_zero (Point.quadrance_nonneg ..), Point.quadrance_eq_zero, PiLp.ext_iff,
    Fin.forall_fin_two]
  obtain ⟨x, y⟩ := m
  simp only [Point.mk.injEq, eq_div_iff (two_ne_zero (α := ℝ)), Point.toPlane]
  simp [mul_comm]

/-- The fourth point is as far from the center as the first just if there is a point that is equally
far from all. -/
theorem sqrt_circumcenter_eq_zero (h : Point.doubleArea a b c ≠ 0) :
    √(d.quadrance (Point.circumcenter a b c)) - √((Point.circumcenter a b c).quadrance a) = 0 ↔
      (Relation.concyclic a b c d).Holds := by
  have hcenter : ∀ o : Point ℝ, (dist a.toPlane o.toPlane = dist b.toPlane o.toPlane ∧
      dist a.toPlane o.toPlane = dist c.toPlane o.toPlane) ↔ o = Point.circumcenter a b c := by
    intro o
    rw [Point.eq_circumcenter_iff h, Point.dist_eq_dist_iff, Point.dist_eq_dist_iff,
      o.quadrance_comm, o.quadrance_comm, o.quadrance_comm]
  rw [sqrt_quadrance_sub_eq_zero, dist_comm _ a.toPlane, Relation.Holds, Point.collinear_iff]
  constructor
  · intro hd
    obtain ⟨hb, hc⟩ := (hcenter _).mpr rfl
    exact ⟨h, _, hb, hc, hd⟩
  · rintro ⟨-, o, hb, hc, hd⟩
    obtain ⟨o, rfl⟩ := Point.exists_toPlane o
    rwa [(hcenter o).mp ⟨hb, hc⟩] at hd

end Exact

namespace Relation

open PlaneFigure.Geometry Exact

/-- The residuals of a relation, as numbers. -/
def values {R : Type} [Number R] (r : Relation R) : List R := calculate r.residuals

/-- Whether the residuals are defined: there is no circle through points on a line. -/
def Defined : Relation ℝ → Prop
  | concyclic a b c _ => Point.doubleArea a b c ≠ 0
  | _ => True

theorem Holds.defined {s : Relation ℝ} (h : s.Holds) : s.Defined := by
  cases s with
  | concyclic a b c d => exact mt (Point.collinear_iff ..).mpr h.1
  | _ => trivial

/-- The residuals are zero just where the relation holds. -/
theorem values_eq_zero_iff {s : Relation ℝ} (h : s.Defined) :
    (∀ x ∈ (s.map real).values, x = real 0) ↔ s.Holds := by
  rw [← List.forall_iff_forall_mem]
  cases s with
  | perp a b c d =>
      change calculate (perpResidual a.exact b.exact c.exact d.exact) = real 0 ↔ _
      rw [calculate_perpResidual_exact, ← Point.inner_toPlane, real.injEq, Holds]
  | para a b c d =>
      change calculate (paraResidual a.exact b.exact c.exact d.exact) = real 0 ↔ _
      rw [calculate_paraResidual_exact, real.injEq, Holds]
  | cong a b c d =>
      change calculate (congResidual a.exact b.exact c.exact d.exact) = real 0 ↔ _
      rw [calculate_congResidual_exact, real.injEq, sub_eq_zero, ← Point.dist_eq_dist_iff, Holds]
  | midp m a b =>
      change calculate (midpResidual m.exact a.exact b.exact) = real 0 ↔ _
      rw [calculate_midpResidual_exact, real.injEq, sqrt_midpoint_eq_zero, Holds]
  | coll a b c =>
      change calculate (collResidual a.exact b.exact c.exact) = real 0 ↔ _
      rw [calculate_collResidual_exact, real.injEq, ← Point.collinear_iff, Holds]
  | between p a b =>
      change (calculate (betweenResiduals p.exact a.exact b.exact)).1 = real 0 ∧
        (calculate (betweenResiduals p.exact a.exact b.exact)).2 = real 0 ↔ _
      rw [calculate_betweenResiduals_exact, real.injEq, real.injEq, gap_eq_zero, gap_eq_zero, Holds]
  | onCircle p o a =>
      change calculate (onCircleResidual p.exact (.around o.exact a.exact)) = real 0 ↔ _
      rw [calculate_onCircleResidual_around_exact, real.injEq, sqrt_quadrance_sub_eq_zero, Holds]
  | concyclic a b c d =>
      change calculate (onCircleResidual d.exact (.through a.exact b.exact c.exact)) = real 0 ↔ _
      rw [calculate_onCircleResidual_through_exact a b c d h, real.injEq,
        sqrt_circumcenter_eq_zero h]

def points {S : Type} : Relation S → List (Point S)
  | perp a b c d | para a b c d | cong a b c d | concyclic a b c d => [a, b, c, d]
  | midp a b c | coll a b c | between a b c | onCircle a b c => [a, b, c]

/-- Every coordinate is used by some residual. -/
theorem isReal_points {r : Relation Exact} (h : ∀ x ∈ r.values, x.IsReal) :
    ∀ p ∈ r.points, p.IsReal := by
  rw [← List.forall_iff_forall_mem] at h ⊢
  cases r with
  | perp a b c d =>
      replace h : (calculate (perpResidual a b c d)).IsReal := h
      simp only [calculate_perpResidual, isReal_add, isReal_mul, isReal_sub] at h
      simp only [points, List.forall_cons, Point.IsReal]
      tauto
  | para a b c d =>
      replace h : (calculate (paraResidual a b c d)).IsReal := h
      simp only [calculate_paraResidual, isReal_mul, isReal_sub] at h
      simp only [points, List.forall_cons, Point.IsReal]
      tauto
  | cong a b c d =>
      replace h : (calculate (congResidual a b c d)).IsReal := h
      simp only [calculate_congResidual, isReal_sub, isReal_sqDist] at h
      simp only [points, List.forall_cons]
      tauto
  | midp m a b =>
      replace h : (calculate (midpResidual m a b)).IsReal := h
      simp only [calculate_midpResidual, isReal_dist, isReal_midpoint] at h
      simp only [points, List.forall_cons]
      tauto
  | coll a b c =>
      replace h : (calculate (collResidual a b c)).IsReal := h
      simp only [calculate_collResidual, isReal_add, isReal_mul, isReal_sub] at h
      simp only [points, List.forall_cons, Point.IsReal]
      tauto
  | between p a b =>
      replace h : (calculate (betweenResiduals p a b)).1.IsReal ∧
        (calculate (betweenResiduals p a b)).2.IsReal := h
      simp only [calculate_betweenResiduals, isReal_max, isReal_add, isReal_mul, isReal_sub] at h
      simp only [points, List.forall_cons, Point.IsReal]
      tauto
  | onCircle p o a =>
      replace h : (calculate (onCircleResidual p (.around o a))).IsReal := h
      simp only [calculate_onCircleResidual_around, isReal_sub, isReal_dist] at h
      simp only [points, List.forall_cons]
      tauto
  | concyclic a b c d =>
      replace h : (calculate (onCircleResidual d (.through a b c))).IsReal := h
      obtain ⟨hd, a, b, c, rfl, rfl, rfl, -⟩ := isReal_onCircleResidual_through h
      exact ⟨Point.isReal_exact a, Point.isReal_exact b, Point.isReal_exact c, hd⟩

/-- A relation whose residuals are defined is one between points with real coordinates. -/
theorem map_toReal {r : Relation Exact} (h : ∀ x ∈ r.values, x.IsReal) :
    (r.map toReal).map real = r ∧ (r.map toReal).Defined := by
  have hpoints := isReal_points h
  constructor
  · rw [← List.forall_iff_forall_mem] at hpoints
    cases r <;> simp_all [points, map, Point.map_toReal]
  · cases r with
    | concyclic a b c d =>
        have hcircle : (calculate (onCircleResidual d (.through a b c))).IsReal := h _ (.head _)
        obtain ⟨-, a, b, c, rfl, rfl, rfl, harea⟩ := isReal_onCircleResidual_through hcircle
        exact harea
    | _ => trivial

end Relation

end PlaneFigure
