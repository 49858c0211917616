import PlaneFigure.Proofs.Geometry.Relation

/-!
Where a point is that is both on the line through two others and between them, in exact arithmetic.
Along each axis, being between them means to be well inside the interval of their coordinates; for
points of the line this is one condition, on how far along the segment they are.
-/

namespace PlaneFigure

open PlaneFigure.Geometry Exact

namespace Point

variable {a b x : Point ℝ} {t : ℝ}

theorem toPlane_eq_lineMap_iff :
    x.toPlane = AffineMap.lineMap a.toPlane b.toPlane t ↔
      x.x - a.x = t * (b.x - a.x) ∧ x.y - a.y = t * (b.y - a.y) := by
  rw [AffineMap.lineMap_apply, toPlane_eq_iff]
  rfl

theorem ne_iff : a ≠ b ↔ a.x ≠ b.x ∨ a.y ≠ b.y := by
  obtain ⟨ax, ay⟩ := a
  obtain ⟨bx, by'⟩ := b
  rw [Ne, mk.injEq, not_and_or]

end Point

namespace Exact

variable {p a b t : ℝ}

theorem gap_nonneg (p a b : ℝ) : 0 ≤ gap p a b :=
  le_max_left ..

theorem gap_comm (p a b : ℝ) : gap p b a = gap p a b := by
  rw [gap, gap, mul_comm]

/-- The gap of a coordinate by how far it is along the way between the two. -/
theorem gap_along (h : p - a = t * (b - a)) :
    gap p a b = max 0 ((t - 0.2) * (t - 0.8) * (b - a) ^ 2) := by
  obtain rfl : p = a + t * (b - a) := by linarith
  rw [gap]
  congr 1
  ring

theorem gap_self : gap p a a = 0 ↔ p = a := by
  rw [gap_eq_zero, sub_self, zero_div, add_zero, Set.uIcc_self, Set.mem_singleton_iff]

/-- Between the two, a fifth away from either. -/
theorem gap_of_mem (h : p - a = t * (b - a)) (ht : t ∈ Set.Icc 0.2 0.8) : gap p a b = 0 := by
  rw [gap_along h, max_eq_left_iff]
  exact mul_nonpos_of_nonpos_of_nonneg
    (mul_nonpos_of_nonneg_of_nonpos (sub_nonneg.mpr ht.1) (sub_nonpos.mpr ht.2)) (sq_nonneg _)

theorem mem_of_gap (h : p - a = t * (b - a)) (hne : a ≠ b) (hgap : gap p a b = 0) :
    t ∈ Set.Icc 0.2 0.8 := by
  have hsq : 0 < (b - a) ^ 2 := pow_two_pos_of_ne_zero (sub_ne_zero.mpr hne.symm)
  rw [gap_along h, max_eq_left_iff] at hgap
  have hprod : (t - 0.2) * (t - 0.8) ≤ 0 := nonpos_of_mul_nonpos_left hgap hsq
  constructor <;> nlinarith

end Exact

namespace Relation

variable (x a b : Point ℝ)

theorem values_coll :
    (coll x.exact a.exact b.exact).values = [real (Point.doubleArea x a b)] :=
  congrArg (fun v => [v]) (calculate_collResidual_exact x a b)

theorem values_between :
    (between x.exact a.exact b.exact).values =
      [real (Exact.gap x.x a.x b.x), real (Exact.gap x.y a.y b.y)] := by
  obtain ⟨hx, hy⟩ := Prod.ext_iff.mp (calculate_betweenResiduals_exact a b x)
  exact congrArg₂ (fun u v => [u, v]) hx hy

variable {x a b}

/-- The two relations hold together just on the segment without a fifth at either end. -/
theorem doubleArea_gaps_eq_zero_iff :
    Point.doubleArea x a b = 0 ∧ Exact.gap x.x a.x b.x = 0 ∧ Exact.gap x.y a.y b.y = 0 ↔
      ∃ t ∈ Set.Icc (0.2 : ℝ) 0.8, x.toPlane = AffineMap.lineMap a.toPlane b.toPlane t := by
  simp only [Point.toPlane_eq_lineMap_iff]
  constructor
  · rintro ⟨harea, hx, hy⟩
    obtain rfl | hne := eq_or_ne a b
    · -- the segment is a point, which is as far along as one likes
      refine ⟨2⁻¹, by norm_num, ?_⟩
      rw [gap_self.mp hx, gap_self.mp hy]
      constructor <;> ring
    · rw [← Point.doubleArea_rotate] at harea
      obtain ⟨t, htx, hty⟩ := Point.exists_factor hne.symm harea
      refine ⟨t, ?_, htx, hty⟩
      -- one of the axes tells how far along the point is
      obtain hne | hne := Point.ne_iff.mp hne
      · exact mem_of_gap htx hne hx
      · exact mem_of_gap hty hne hy
  · rintro ⟨t, ht, htx, hty⟩
    refine ⟨?_, gap_of_mem htx ht, gap_of_mem hty ht⟩
    rw [← Point.doubleArea_rotate, Point.doubleArea, Point.cross, htx, hty]
    ring

/-- Together, the residuals of the two relations vanish just where the point is at least a fifth and
at most four fifths along the segment, even if the ends coincide. Those of being between them are
never negative, and do not change if the ends are exchanged. -/
theorem coll_between_iff_inset (x a b : Point ℝ) :
    ((∀ v ∈ (coll x.exact a.exact b.exact).values ++ (between x.exact a.exact b.exact).values,
        v = real 0) ↔
      ∃ t ∈ Set.Icc (0.2 : ℝ) 0.8, x.toPlane = AffineMap.lineMap a.toPlane b.toPlane t) ∧
    (∃ u v : ℝ, 0 ≤ u ∧ 0 ≤ v ∧
      (between x.exact a.exact b.exact).values = [real u, real v]) ∧
    (between x.exact b.exact a.exact).values = (between x.exact a.exact b.exact).values := by
  refine ⟨?_, ⟨_, _, gap_nonneg .., gap_nonneg .., values_between x a b⟩, ?_⟩
  · rw [values_coll, values_between, ← doubleArea_gaps_eq_zero_iff]
    simp
  · rw [values_between, values_between, gap_comm x.x, gap_comm x.y]

end Relation

end PlaneFigure
