import PlaneFigure.Proofs.Geometry.Center
import PlaneFigure.Proofs.Geometry.Crossing

/-!
The center of the circle that touches the three sides of a triangle. It is the barycenter whose
weights are the lengths of the opposite sides; so its distances to the sides, in which these lengths
divide the area, are all the same.
-/

namespace PlaneFigure

namespace Point

variable (a b c : Point ℝ)

/-- The barycenter with the lengths of the opposite sides as weights. -/
noncomputable def incenter : Point ℝ :=
  barycenter a b c √(b.quadrance c) √(c.quadrance a) √(a.quadrance b)

theorem barycenter_rotate (x y z : ℝ) : barycenter b c a y z x = barycenter a b c x y z := by
  unfold barycenter
  congr 2 <;> ring

theorem barycenter_swap (x y z : ℝ) : barycenter b a c y x z = barycenter a b c x y z := by
  unfold barycenter
  congr 2 <;> ring

theorem incenter_rotate : incenter b c a = incenter a b c :=
  barycenter_rotate ..

theorem incenter_swap : incenter b a c = incenter a b c := by
  rw [incenter, quadrance_comm a c, quadrance_comm c b, quadrance_comm b a]
  exact barycenter_swap ..

/-! ### Distances from a line -/

/-- The area of a parallelogram and the projections of its sides. -/
theorem quadrance_mul_quadrance (p q : Point ℝ) :
    p.quadrance q * a.quadrance b = cross p q a b ^ 2 + dot p q a b ^ 2 := by
  unfold quadrance cross dot
  ring

variable {a b c}

theorem abs_cross_le (p q : Point ℝ) :
    |cross p q a b| ≤ √(p.quadrance q) * √(a.quadrance b) := by
  rw [← Real.sqrt_mul (quadrance_nonneg ..), ← Real.sqrt_sq_eq_abs, quadrance_mul_quadrance]
  exact Real.sqrt_le_sqrt (le_add_of_nonneg_right (sq_nonneg _))

theorem mem_line_iff (hne : a ≠ b) {p : Point ℝ} :
    p.toPlane ∈ line[ℝ, a.toPlane, b.toPlane] ↔ cross a p b p = 0 :=
  Geometry.TwoPoints.contains_iff (l := ⟨a, b⟩) hne

/-- From every point of the line, the same parallelogram is spanned. -/
theorem cross_of_mem_line {p q : Point ℝ} (h : cross a q b q = 0) :
    cross p q a b = cross b a p a := by
  unfold cross at *
  linear_combination -h

/-- The distance of a point from the line through two others. -/
theorem infDist_line (hne : a ≠ b) (p : Point ℝ) :
    Metric.infDist p.toPlane line[ℝ, a.toPlane, b.toPlane] =
      |cross b a p a| / √(a.quadrance b) := by
  have hside := side_pos hne
  apply le_antisymm
  · -- the foot of the perpendicular is that near
    have hq : a.quadrance b ≠ 0 := mt quadrance_eq_zero.mp hne
    let k := dot p a b a / a.quadrance b
    have hk : k * a.quadrance b = dot p a b a := div_mul_cancel₀ _ hq
    let foot : Point ℝ := ⟨a.x + k * (b.x - a.x), a.y + k * (b.y - a.y)⟩
    have hmem : cross a foot b foot = 0 := by
      simp only [cross, foot]
      ring
    have hdot : dot p foot a b = 0 := by
      simp only [foot]
      unfold dot quadrance at *
      linear_combination hk
    have hfoot : √(p.quadrance foot) * √(a.quadrance b) = |cross b a p a| := by
      rw [← Real.sqrt_mul (quadrance_nonneg ..), quadrance_mul_quadrance, hdot,
        cross_of_mem_line hmem, zero_pow two_ne_zero, add_zero, Real.sqrt_sq_eq_abs]
    have hle := Metric.infDist_le_dist_of_mem ((mem_line_iff hne).mpr hmem) (x := p.toPlane)
    rw [le_div_iff₀ hside, ← hfoot]
    exact mul_le_mul_of_nonneg_right (hle.trans_eq (dist_toPlane ..)) hside.le
  · refine (Metric.le_infDist ⟨_, left_mem_affineSpan_pair ..⟩).mpr fun y hy => ?_
    obtain ⟨q, rfl⟩ := exists_toPlane y
    rw [div_le_iff₀ hside, dist_toPlane, ← cross_of_mem_line ((mem_line_iff hne).mp hy)]
    exact abs_cross_le p q

/-! ### Inner points -/

theorem affineIndependent_corners (h : doubleArea a b c ≠ 0) :
    AffineIndependent ℝ ![a.toPlane, b.toPlane, c.toPlane] :=
  affineIndependent_iff_not_collinear_set.mpr (mt (collinear_iff a b c).mp h)

/-- The corners of a triangle that is not degenerate span the plane. -/
noncomputable def corners (h : doubleArea a b c ≠ 0) : AffineBasis (Fin 3) ℝ Plane where
  toFun := ![a.toPlane, b.toPlane, c.toPlane]
  ind' := affineIndependent_corners h
  tot' := by
    rw [(affineIndependent_corners h).affineSpan_eq_top_iff_card_eq_finrank_add_one]
    simp

theorem range_corners (h : doubleArea a b c ≠ 0) :
    Set.range (corners h) = {a.toPlane, b.toPlane, c.toPlane} := by
  change Set.range ![a.toPlane, b.toPlane, c.toPlane] = _
  ext v
  simp only [Set.mem_range, Fin.exists_fin_succ, Set.mem_insert_iff, Set.mem_singleton_iff]
  simp [eq_comm]

/-- The weights of a barycenter are its coordinates, up to their sum. -/
theorem coord_barycenter (h : doubleArea a b c ≠ 0) {x y z s : ℝ} (hs : x + y + z = s) (hne : s ≠ 0)
    (i : Fin 3) :
    (corners h).coord i (barycenter a b c x y z).toPlane = ![x / s, y / s, z / s] i := by
  have hsum : ∑ i, ![x / s, y / s, z / s] i = 1 := by
    rw [Fin.sum_univ_three]
    simp only [Matrix.cons_val]
    rw [← add_div, ← add_div, hs, div_self hne]
  have hcombination : Finset.univ.affineCombination ℝ (corners h) ![x / s, y / s, z / s] =
      (barycenter a b c x y z).toPlane := by
    rw [Finset.affineCombination_eq_linear_combination _ _ _ hsum, Fin.sum_univ_three]
    change _ • a.toPlane + _ • b.toPlane + _ • c.toPlane = _
    subst hs
    ext i
    fin_cases i <;> simp [toPlane, barycenter] <;> ring
  rw [← hcombination]
  exact AffineBasis.coord_apply_combination_of_mem _ (Finset.mem_univ i) hsum

/-- A barycenter with positive weights lies inside the triangle. -/
theorem barycenter_mem_interior (h : doubleArea a b c ≠ 0) {x y z : ℝ} (hx : 0 < x) (hy : 0 < y)
    (hz : 0 < z) : (barycenter a b c x y z).toPlane ∈
      interior (convexHull ℝ {a.toPlane, b.toPlane, c.toPlane}) := by
  have hs : 0 < x + y + z := by positivity
  rw [← range_corners h, AffineBasis.interior_convexHull]
  intro i
  rw [coord_barycenter h rfl hs.ne']
  fin_cases i
  exacts [div_pos hx hs, div_pos hy hs, div_pos hz hs]

/-! ### The incenter -/

theorem cross_barycenter (a b c : Point ℝ) {x y z s : ℝ} (hs : x + y + z = s) (hne : s ≠ 0)
    (p q : Point ℝ) :
    cross p q (barycenter a b c x y z) a * s = y * cross p q b a + z * cross p q c a := by
  subst hs
  unfold cross barycenter
  field_simp
  ring

theorem doubleArea_swap (a b c : Point ℝ) : doubleArea b a c = -doubleArea a b c := by
  unfold doubleArea cross
  ring

theorem sides_pos (h : doubleArea a b c ≠ 0) :
    0 < √(b.quadrance c) ∧ 0 < √(c.quadrance a) ∧ 0 < √(a.quadrance b) := by
  have h' := (doubleArea_rotate a b c).trans_ne h
  have h'' := (doubleArea_rotate b c a).trans_ne h'
  exact ⟨side_pos (ne_of_doubleArea h'), side_pos (ne_of_doubleArea h''),
    side_pos (ne_of_doubleArea h)⟩

/-- The sum of the lengths of the sides. -/
noncomputable def perimeter (a b c : Point ℝ) : ℝ :=
  dist b.toPlane c.toPlane + dist c.toPlane a.toPlane + dist a.toPlane b.toPlane

theorem perimeter_rotate (a b c : Point ℝ) : perimeter b c a = perimeter a b c := by
  unfold perimeter
  ring

theorem sum_sides (a b c : Point ℝ) :
    √(b.quadrance c) + √(c.quadrance a) + √(a.quadrance b) = perimeter a b c := by
  rw [perimeter, dist_toPlane, dist_toPlane, dist_toPlane]

theorem perimeter_pos (h : doubleArea a b c ≠ 0) : 0 < perimeter a b c := by
  obtain ⟨ha, hb, hc⟩ := sides_pos h
  rw [← sum_sides]
  positivity

/-- How far the incenter is from a side: twice the area, by the perimeter. -/
theorem infDist_incenter (h : doubleArea a b c ≠ 0) :
    Metric.infDist (incenter a b c).toPlane line[ℝ, a.toPlane, b.toPlane] =
      |doubleArea a b c| / perimeter a b c := by
  have hp := perimeter_pos h
  have hside := (sides_pos h).2.2
  have hcross : cross b a (incenter a b c) a * perimeter a b c =
      √(a.quadrance b) * doubleArea a b c := by
    rw [incenter, cross_barycenter a b c (sum_sides a b c) hp.ne', doubleArea]
    unfold cross
    ring
  have habs := congrArg abs hcross
  rw [abs_mul, abs_mul, abs_of_pos hp, abs_of_pos hside] at habs
  rw [infDist_line (ne_of_doubleArea h), div_eq_div_iff hside.ne' hp.ne', habs, mul_comm]

theorem incenter_mem_interior (h : doubleArea a b c ≠ 0) :
    (incenter a b c).toPlane ∈ interior (convexHull ℝ {a.toPlane, b.toPlane, c.toPlane}) := by
  obtain ⟨ha, hb, hc⟩ := sides_pos h
  exact barycenter_mem_interior h ha hb hc

end Point

namespace Exact

open PlaneFigure.Geometry

variable {a b c : Point ℝ}

/-- The incenter is computed in every triangle that is not degenerate. -/
theorem calculate_incenter_exact (h : Point.doubleArea a b c ≠ 0) :
    calculate (incenter a.exact b.exact c.exact) = (Point.incenter a b c).exact := by
  have htrilinear : calculate (incenter a.exact b.exact c.exact) =
      calculate (trilinear a.exact b.exact c.exact 1.0 1.0 1.0) := rfl
  have hne := (Point.sum_sides a b c).trans_ne (Point.perimeter_pos h).ne'
  simp only [htrilinear, calculate_trilinear, calculate_sides_exact, literal_one]
  simp only [Point.exact, Point.map, real_mul, real_add, mul_one, real_div hne]
  rfl

/-- The incenter does not depend on the order of the corners. -/
theorem calculate_incenter_orders (h : Point.doubleArea a b c ≠ 0) {x y z : Point ℝ}
    (hxyz : (x, y, z) ∈ [(a, b, c), (b, c, a), (c, a, b), (b, a, c), (a, c, b), (c, b, a)]) :
    calculate (incenter x.exact y.exact z.exact) = (Point.incenter a b c).exact := by
  have hrotated : ∀ {p q r : Point ℝ}, Point.doubleArea p q r ≠ 0 → Point.doubleArea q r p ≠ 0 :=
    fun h => (Point.doubleArea_rotate ..).trans_ne h
  have hswapped : ∀ {p q r : Point ℝ}, Point.doubleArea p q r ≠ 0 → Point.doubleArea q p r ≠ 0 :=
    fun h => (Point.doubleArea_swap ..).trans_ne (neg_ne_zero.mpr h)
  simp only [List.mem_cons, Prod.mk.injEq, List.not_mem_nil, or_false] at hxyz
  obtain ⟨rfl, rfl, rfl⟩ | ⟨rfl, rfl, rfl⟩ | ⟨rfl, rfl, rfl⟩ | ⟨rfl, rfl, rfl⟩ | ⟨rfl, rfl, rfl⟩ |
    ⟨rfl, rfl, rfl⟩ := hxyz
  · exact calculate_incenter_exact h
  · rw [calculate_incenter_exact (hrotated h), Point.incenter_rotate]
  · rw [calculate_incenter_exact (hrotated (hrotated h)), Point.incenter_rotate,
      Point.incenter_rotate]
  · rw [calculate_incenter_exact (hswapped h), Point.incenter_swap]
  · rw [calculate_incenter_exact (hrotated (hswapped h)), Point.incenter_rotate,
      Point.incenter_swap]
  · rw [calculate_incenter_exact (hswapped (hrotated h)), Point.incenter_swap,
      Point.incenter_rotate]

/-- The incenter of a triangle that is not degenerate lies inside of it. It is equally far from the
lines through the sides, namely twice the area by the perimeter, and it does not depend on the order
of the corners. -/
theorem incenter_touches_sides (h : ¬ Collinear ℝ {a.toPlane, b.toPlane, c.toPlane}) :
    ∃ p : Point ℝ,
      (∀ x y z, (x, y, z) ∈ [(a, b, c), (b, c, a), (c, a, b), (b, a, c), (a, c, b), (c, b, a)] →
        calculate (incenter x.exact y.exact z.exact) = p.exact) ∧
      p.toPlane ∈ interior (convexHull ℝ {a.toPlane, b.toPlane, c.toPlane}) ∧
      Metric.infDist p.toPlane line[ℝ, a.toPlane, b.toPlane] =
        |Point.doubleArea a b c| / Point.perimeter a b c ∧
      Metric.infDist p.toPlane line[ℝ, b.toPlane, c.toPlane] =
        |Point.doubleArea a b c| / Point.perimeter a b c ∧
      Metric.infDist p.toPlane line[ℝ, c.toPlane, a.toPlane] =
        |Point.doubleArea a b c| / Point.perimeter a b c := by
  have harea : Point.doubleArea a b c ≠ 0 := mt (Point.collinear_iff a b c).mpr h
  have hrotated : Point.doubleArea b c a ≠ 0 := (Point.doubleArea_rotate a b c).trans_ne harea
  have hb := Point.infDist_incenter hrotated
  have hc := Point.infDist_incenter ((Point.doubleArea_rotate b c a).trans_ne hrotated)
  simp only [Point.incenter_rotate, Point.doubleArea_rotate, Point.perimeter_rotate] at hb hc
  exact ⟨Point.incenter a b c, fun _ _ _ hxyz => calculate_incenter_orders harea hxyz,
    Point.incenter_mem_interior harea, Point.infDist_incenter harea, hb, hc⟩

/-- In the triangle with the sides 3, 4 and 5, the distance is 1. -/
theorem incenter_touches_sides_right :
    let a : Point ℝ := ⟨0, 0⟩
    let b : Point ℝ := ⟨3, 0⟩
    let c : Point ℝ := ⟨0, 4⟩
    ¬ Collinear ℝ {a.toPlane, b.toPlane, c.toPlane} ∧
      ∃ p : Point ℝ, calculate (incenter a.exact b.exact c.exact) = p.exact ∧
        Metric.infDist p.toPlane line[ℝ, b.toPlane, c.toPlane] = 1 := by
  intro a b c
  have harea : Point.doubleArea a b c = 12 := by norm_num [Point.doubleArea, Point.cross, a, b, c]
  have hperimeter : Point.perimeter a b c = 12 := by
    have hbc : √(b.quadrance c) = 5 := by
      rw [show b.quadrance c = 5 ^ 2 by norm_num [Point.quadrance, b, c]]
      exact Real.sqrt_sq (by norm_num)
    have hca : √(c.quadrance a) = 4 := by
      rw [show c.quadrance a = 4 ^ 2 by norm_num [Point.quadrance, a, c]]
      exact Real.sqrt_sq (by norm_num)
    have hab : √(a.quadrance b) = 3 := by
      rw [show a.quadrance b = 3 ^ 2 by norm_num [Point.quadrance, a, b]]
      exact Real.sqrt_sq (by norm_num)
    rw [← Point.sum_sides, hbc, hca, hab]
    norm_num
  have h : ¬ Collinear ℝ {a.toPlane, b.toPlane, c.toPlane} :=
    mt (Point.collinear_iff a b c).mp (ne_of_eq_of_ne harea (by norm_num))
  obtain ⟨p, hp, -, -, hdist, -⟩ := incenter_touches_sides h
  refine ⟨h, p, hp a b c (by simp), hdist.trans ?_⟩
  rw [harea, hperimeter]
  norm_num

end Exact

end PlaneFigure
