import PlaneFigure.Proofs.Number.Real
import PlaneFigure.Point

/-!
Points with real coordinates as points of the Euclidean plane, and what distances, right angles
and lines are in coordinates.
-/

namespace PlaneFigure

abbrev Plane := EuclideanSpace ℝ (Fin 2)

namespace Point

noncomputable def toPlane (p : Point ℝ) : Plane := !₂[p.x, p.y]

variable (a b c d : Point ℝ)

/-- The square of the distance. -/
def quadrance : ℝ := (a.x - b.x) ^ 2 + (a.y - b.y) ^ 2

/-- The dot product of `a - b` and `c - d`. -/
def dot : ℝ := (a.x - b.x) * (c.x - d.x) + (a.y - b.y) * (c.y - d.y)

/-- The cross product of `a - b` and `c - d`. -/
def cross : ℝ := (a.x - b.x) * (c.y - d.y) - (a.y - b.y) * (c.x - d.x)

theorem quadrance_nonneg : 0 ≤ a.quadrance b := by
  unfold quadrance
  positivity

theorem quadrance_comm : a.quadrance b = b.quadrance a := by
  unfold quadrance
  ring

variable {a b} in
theorem quadrance_eq_zero : a.quadrance b = 0 ↔ a = b := by
  constructor
  · intro h
    obtain ⟨hx, hy⟩ := (add_eq_zero_iff_of_nonneg (sq_nonneg _) (sq_nonneg _)).mp h
    obtain ⟨ax, ay⟩ := a
    obtain ⟨bx, by'⟩ := b
    rw [sq_eq_zero_iff, sub_eq_zero] at hx hy
    exact congrArg₂ mk hx hy
  · rintro rfl
    simp [quadrance]

variable {a b} in
theorem eq_of_sub_eq_zero (hx : a.x - b.x = 0) (hy : a.y - b.y = 0) : a = b := by
  rw [← quadrance_eq_zero, quadrance, hx, hy]
  ring

theorem dist_toPlane : dist a.toPlane b.toPlane = √(a.quadrance b) := by
  rw [EuclideanSpace.dist_eq, Fin.sum_univ_two]
  simp [toPlane, quadrance, Real.dist_eq, sq_abs]

variable {a b} in
theorem norm_toPlane_sub : ‖a.toPlane - b.toPlane‖ = √(a.quadrance b) := by
  rw [← dist_eq_norm, dist_toPlane]

theorem norm_toPlane : ‖a.toPlane‖ = √(a.quadrance ⟨0, 0⟩) := by
  have horigin : toPlane ⟨0, 0⟩ = 0 := PiLp.ext (Fin.forall_fin_two.mpr ⟨rfl, rfl⟩)
  rw [← norm_toPlane_sub, horigin, sub_zero]

variable {a b} in
theorem side_pos (hne : a ≠ b) : 0 < √(a.quadrance b) :=
  Real.sqrt_pos.mpr ((quadrance_nonneg ..).lt_of_ne' (mt quadrance_eq_zero.mp hne))

theorem dist_eq_dist_iff :
    dist a.toPlane b.toPlane = dist c.toPlane d.toPlane ↔ a.quadrance b = c.quadrance d := by
  rw [dist_toPlane, dist_toPlane, Real.sqrt_inj (quadrance_nonneg ..) (quadrance_nonneg ..)]

theorem inner_toPlane : inner ℝ (a.toPlane - b.toPlane) (c.toPlane - d.toPlane) = dot a b c d := by
  simp [toPlane, dot, PiLp.inner_apply, Fin.sum_univ_two]
  ring

theorem toPlane_eq_iff {v : Plane} {r : ℝ} :
    b.toPlane = r • v +ᵥ a.toPlane ↔ b.x - a.x = r * v 0 ∧ b.y - a.y = r * v 1 := by
  rw [PiLp.ext_iff, Fin.forall_fin_two]
  simp [toPlane, sub_eq_iff_eq_add]

theorem exists_toPlane (v : Plane) : ∃ p : Point ℝ, p.toPlane = v :=
  ⟨⟨v 0, v 1⟩, PiLp.ext (Fin.forall_fin_two.mpr ⟨rfl, rfl⟩)⟩

variable {a b c d} in
/-- Differences are multiples of one that does not vanish if their cross product does. -/
theorem exists_factor (hne : b ≠ a) (h : cross b a d c = 0) :
    ∃ k, d.x - c.x = k * (b.x - a.x) ∧ d.y - c.y = k * (b.y - a.y) := by
  have hq : b.quadrance a ≠ 0 := mt quadrance_eq_zero.mp hne
  refine ⟨dot b a d c / b.quadrance a, ?_, ?_⟩
  · rw [div_mul_eq_mul_div, eq_div_iff hq]
    unfold quadrance dot cross at *
    linear_combination -(b.y - a.y) * h
  · rw [div_mul_eq_mul_div, eq_div_iff hq]
    unfold quadrance dot cross at *
    linear_combination (b.x - a.x) * h

theorem collinear_iff : Collinear ℝ {a.toPlane, b.toPlane, c.toPlane} ↔ cross b a c a = 0 := by
  rw [collinear_iff_of_mem (Set.mem_insert ..)]
  constructor
  · rintro ⟨v, hv⟩
    obtain ⟨r, hb⟩ := hv b.toPlane (by simp)
    obtain ⟨s, hc⟩ := hv c.toPlane (by simp)
    rw [toPlane_eq_iff] at hb hc
    rw [cross, hb.1, hb.2, hc.1, hc.2]
    ring
  intro h
  -- the line is that through `a` and `b`, or that through `a` and `c` if `b` is `a`
  obtain rfl | hne := eq_or_ne b a
  · refine ⟨c.toPlane - b.toPlane, ?_⟩
    rintro p (rfl | rfl | rfl)
    · exact ⟨0, by simp⟩
    · exact ⟨0, by simp⟩
    · exact ⟨1, by simp⟩
  · obtain ⟨k, hk⟩ := exists_factor hne h
    refine ⟨b.toPlane - a.toPlane, ?_⟩
    rintro p (rfl | rfl | rfl)
    · exact ⟨0, by simp⟩
    · exact ⟨1, by simp⟩
    · exact ⟨k, (toPlane_eq_iff ..).mpr hk⟩

end Point

end PlaneFigure
