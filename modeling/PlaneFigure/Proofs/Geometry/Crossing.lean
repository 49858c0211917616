import PlaneFigure.Proofs.Geometry.Intersection

/-!
Where two lines cross, each given by two of its points. In exact arithmetic, lines that are not
parallel have one point in common, which is found from any two points of each. Whether they are far
enough from parallel does not depend on where the figure is, how it is turned and how large it is.
-/

namespace PlaneFigure

open PlaneFigure.Geometry Exact
open scoped Affine

namespace Point

variable {p q r s x y : Point ℝ}

theorem toPlane_injective : Function.Injective toPlane := by
  intro p q h
  refine quadrance_eq_zero.mp ((Real.sqrt_eq_zero (quadrance_nonneg ..)).mp ?_)
  rw [← dist_toPlane, h, dist_self]

/-- Differences that do not vanish are multiples of each other if their cross product vanishes. -/
theorem exists_factor_ne (hpq : q ≠ p) (hrs : s ≠ r) (h : cross q p s r = 0) :
    ∃ k ≠ 0, s.x - r.x = k * (q.x - p.x) ∧ s.y - r.y = k * (q.y - p.y) := by
  obtain ⟨k, hx, hy⟩ := exists_factor hpq h
  refine ⟨k, ?_, hx, hy⟩
  rintro rfl
  rw [zero_mul] at hx hy
  exact hrs (eq_of_sub_eq_zero hx hy)

/-- A difference along two directions that are not parallel vanishes. -/
theorem eq_of_cross (h : cross q p s r ≠ 0) (hpq : cross q p y x = 0) (hrs : cross s r y x = 0) :
    y = x := by
  have hx : (y.x - x.x) * cross q p s r = 0 := by
    unfold cross at *
    linear_combination (s.x - r.x) * hpq - (q.x - p.x) * hrs
  have hy : (y.y - x.y) * cross q p s r = 0 := by
    unfold cross at *
    linear_combination (s.y - r.y) * hpq - (q.y - p.y) * hrs
  exact eq_of_sub_eq_zero ((mul_eq_zero.mp hx).resolve_right h)
    ((mul_eq_zero.mp hy).resolve_right h)

end Point

namespace Geometry.TwoPoints

section

variable {S T : Type}

def map (f : Point S → Point T) (l : TwoPoints S) : TwoPoints T := ⟨f l.p, f l.q⟩

/-- The same line the other way around. -/
def reverse (l : TwoPoints S) : TwoPoints S := ⟨l.q, l.p⟩

end

/-- A line through points with real coordinates in exact arithmetic. -/
def exact (l : TwoPoints ℝ) : TwoPoints Exact := l.map Point.exact

theorem exact_injective : Function.Injective exact := by
  rintro ⟨⟨a, b⟩, ⟨c, d⟩⟩ ⟨⟨a', b'⟩, ⟨c', d'⟩⟩ h
  simpa [exact, map, Point.exact, Point.map] using h

/-- The point is on the line. -/
def Contains (l : TwoPoints ℝ) (x : Point ℝ) : Prop :=
  x.toPlane ∈ line[ℝ, l.p.toPlane, l.q.toPlane]

/-- The lines have this point in common, and no other. -/
def MeetsAt (l m : TwoPoints ℝ) (x : Point ℝ) : Prop :=
  ∀ y, l.Contains y ∧ m.Contains y ↔ y = x

/-- A line that is given by two other points of `l`, if it is not by the same. -/
structure Redraws (l' l : TwoPoints ℝ) : Prop where
  ne : l'.p ≠ l'.q
  left : l.Contains l'.p
  right : l.Contains l'.q

/-- The cross product of the directions. -/
def cross (l m : TwoPoints ℝ) : ℝ := Point.cross l.q l.p m.q m.p

variable {l m l' m' : TwoPoints ℝ} {x : Point ℝ}

theorem calculate_det_exact (l m : TwoPoints ℝ) :
    calculate (l.exact.det m.exact) = real (l.cross m) :=
  rfl

theorem cross_comm (l m : TwoPoints ℝ) : m.cross l = -l.cross m := by
  unfold cross Point.cross
  ring

theorem ne_of_cross (h : l.cross m ≠ 0) : l.p ≠ l.q ∧ m.p ≠ m.q := by
  constructor
  all_goals
    intro hpq
    apply h
    unfold cross Point.cross
    rw [hpq]
    ring

/-! ### Points on a line -/

theorem contains_iff (hne : l.p ≠ l.q) : l.Contains x ↔ Point.cross l.p x l.q x = 0 := by
  rw [← Point.collinear_iff]
  constructor
  · exact collinear_insert_of_mem_affineSpan_pair
  · intro h
    exact h.mem_affineSpan_of_mem_of_ne (by simp) (by simp) (by simp)
      (Point.toPlane_injective.ne hne)

/-- Two points of a line differ along its direction. -/
theorem cross_of_contains {y : Point ℝ} (hne : l.p ≠ l.q) (hx : l.Contains x) (hy : l.Contains y) :
    Point.cross l.q l.p y x = 0 := by
  rw [contains_iff hne] at hx hy
  unfold Point.cross at *
  linear_combination hy - hx

theorem Redraws.exists_factor (h : Redraws l' l) (hne : l.p ≠ l.q) :
    ∃ k ≠ 0, l'.q.x - l'.p.x = k * (l.q.x - l.p.x) ∧ l'.q.y - l'.p.y = k * (l.q.y - l.p.y) :=
  Point.exists_factor_ne hne.symm h.ne.symm (cross_of_contains hne h.left h.right)

/-- It is the same line. -/
theorem Redraws.contains_iff (h : Redraws l' l) (hne : l.p ≠ l.q) :
    l'.Contains x ↔ l.Contains x := by
  obtain ⟨k, hk, hx, hy⟩ := h.exists_factor hne
  have hleft := (TwoPoints.contains_iff hne).mp h.left
  have hcross : Point.cross l'.p x l'.q x = k * Point.cross l.p x l.q x := by
    unfold Point.cross at *
    linear_combination (l'.p.x - x.x) * hy - (l'.p.y - x.y) * hx - k * hleft
  rw [TwoPoints.contains_iff h.ne, TwoPoints.contains_iff hne, hcross, mul_eq_zero]
  simp only [hk, false_or]

theorem Redraws.cross_ne_zero (hl : Redraws l' l) (hm : Redraws m' m) (h : l.cross m ≠ 0) :
    l'.cross m' ≠ 0 := by
  obtain ⟨hlne, hmne⟩ := ne_of_cross h
  obtain ⟨j, hj, hlx, hly⟩ := hl.exists_factor hlne
  obtain ⟨k, hk, hmx, hmy⟩ := hm.exists_factor hmne
  have hcross : l'.cross m' = j * k * l.cross m := by
    unfold cross Point.cross
    rw [hlx, hly, hmx, hmy]
    ring
  rw [hcross]
  exact mul_ne_zero (mul_ne_zero hj hk) h

theorem Redraws.refl (hne : l.p ≠ l.q) : Redraws l l :=
  ⟨hne, left_mem_affineSpan_pair .., right_mem_affineSpan_pair ..⟩

/-! ### The common point -/

theorem MeetsAt.symm (h : l.MeetsAt m x) : m.MeetsAt l x := fun y => and_comm.trans (h y)

theorem MeetsAt.redrawn (h : l.MeetsAt m x) (hlne : l.p ≠ l.q) (hmne : m.p ≠ m.q)
    (hl : Redraws l' l) (hm : Redraws m' m) : l'.MeetsAt m' x := by
  intro y
  rw [hl.contains_iff hlne, hm.contains_iff hmne]
  exact h y

/-- What is computed is the common point of two lines that are not parallel. -/
theorem meetsAt_intersection (h : l.cross m ≠ 0) :
    ∃ x, l.MeetsAt m x ∧ calculate (l.exact.intersection m.exact) = x.exact := by
  obtain ⟨hlne, hmne⟩ := ne_of_cross h
  have hleft : l.Contains (Point.meet l.p l.q m.p m.q) :=
    (contains_iff hlne).mpr (Point.cross_meet_left ..)
  have hright : m.Contains (Point.meet l.p l.q m.p m.q) :=
    (contains_iff hmne).mpr (Point.cross_meet_right h)
  refine ⟨_, fun y => ⟨fun hy => ?_, ?_⟩, calculate_intersection_exact h⟩
  · exact Point.eq_of_cross h (cross_of_contains hlne hleft hy.1)
      (cross_of_contains hmne hright hy.2)
  · rintro rfl
    exact ⟨hleft, hright⟩

theorem MeetsAt.intersection_eq (hx : l.MeetsAt m x) (h : l.cross m ≠ 0) :
    calculate (l.exact.intersection m.exact) = x.exact := by
  obtain ⟨y, hy, hcalculate⟩ := meetsAt_intersection h
  rw [hcalculate, (hx y).mp ((hy y).mpr rfl)]

/-! ### Slopes -/

/-- A slope is defined unless the line is vertical. -/
theorem exists_slope (h : (calculate l.exact.slope).IsReal) :
    ∃ s, l.q.x - l.p.x ≠ 0 ∧ l.q.y - l.p.y = s * (l.q.x - l.p.x) ∧
      calculate l.exact.slope = real s ∧
      calculate l.exact.intercept = real (l.p.y - s * l.p.x) := by
  obtain ⟨-, dx, hdx, hdef⟩ := isReal_div.mp h
  cases hdef
  have hslope : calculate l.exact.slope = real ((l.q.y - l.p.y) / (l.q.x - l.p.x)) := real_div hdx
  refine ⟨_, hdx, (div_mul_cancel₀ _ hdx).symm, hslope, ?_⟩
  change real l.p.y - calculate l.exact.slope * real l.p.x = _
  rw [hslope]
  rfl

theorem y_eq_of_contains {s : ℝ} (hdx : l.q.x - l.p.x ≠ 0)
    (hs : l.q.y - l.p.y = s * (l.q.x - l.p.x)) (hne : l.p ≠ l.q) (hx : l.Contains x) :
    x.y = s * x.x + (l.p.y - s * l.p.x) := by
  rw [contains_iff hne] at hx
  refine mul_left_cancel₀ hdx ?_
  unfold Point.cross at hx
  linear_combination hx - (l.p.x - x.x) * hs

/-- The common point solves the equations of the lines, if both have a slope. -/
theorem MeetsAt.slope_form (hx : l.MeetsAt m x) (h : l.cross m ≠ 0)
    (hl : (calculate l.exact.slope).IsReal) (hm : (calculate m.exact.slope).IsReal) :
    x.exact.x = (calculate m.exact.intercept - calculate l.exact.intercept) /
        (calculate l.exact.slope - calculate m.exact.slope) ∧
      x.exact.y = calculate l.exact.slope * x.exact.x + calculate l.exact.intercept := by
  obtain ⟨hlne, hmne⟩ := ne_of_cross h
  obtain ⟨s, hdx, hs, hlslope, hlintercept⟩ := exists_slope hl
  obtain ⟨t, hex, ht, hmslope, hmintercept⟩ := exists_slope hm
  obtain ⟨hleft, hright⟩ := (hx x).mpr rfl
  have hyl := y_eq_of_contains hdx hs hlne hleft
  have hym := y_eq_of_contains hex ht hmne hright
  have hst : s - t ≠ 0 := by
    intro hst
    apply h
    unfold cross Point.cross
    rw [hs, ht]
    linear_combination -(l.q.x - l.p.x) * (m.q.x - m.p.x) * hst
  have hsolve : x.x = (m.p.y - t * m.p.x - (l.p.y - s * l.p.x)) / (s - t) := by
    rw [eq_div_iff hst]
    linear_combination hym - hyl
  rw [hlslope, hmslope, hlintercept, hmintercept, real_sub, real_sub, real_div hst, ← hsolve]
  exact ⟨rfl, congrArg real hyl⟩

/-! ### Far enough from parallel -/

/-- Whether two lines through given points are far enough from parallel. -/
def transversal {R : Type} [Number R] (degeneracy : R) (l m : TwoPoints R) : Bool :=
  let d := calculate l.direction
  let e := calculate m.direction
  Number.lt (degeneracy * (Number.hypotenuse d.x d.y * Number.hypotenuse e.x e.y))
    (Number.abs (calculate (l.det m)))

variable {ε : ℝ}

theorem transversal_exact : l.exact.transversal (real ε) m.exact = true ↔
    ε * (√(l.q.quadrance l.p) * √(m.q.quadrance m.p)) < |l.cross m| := by
  have hdirection : ∀ n : TwoPoints ℝ, Number.hypotenuse (calculate n.exact.direction).x
      (calculate n.exact.direction).y = real √(n.q.quadrance n.p) := by
    intro n
    rw [Point.quadrance, pow_two, pow_two]
    exact real_hypotenuse
  rw [transversal, hdirection, hdirection]
  exact real_lt

/-- What is far enough from parallel has real coordinates and is not parallel at all. -/
theorem real_of_transversal {l m : TwoPoints Exact} (hε : 0 ≤ ε)
    (h : l.transversal (real ε) m = true) :
    ∃ l₀ m₀ : TwoPoints ℝ, l = l₀.exact ∧ m = m₀.exact ∧ l₀.cross m₀ ≠ 0 := by
  have hreal : ∀ {a b : Exact}, Number.lt a b = true → b.IsReal := by
    intro a b hab
    cases b with
    | undefined => cases a <;> cases hab
    | real y => exact isReal_real
  obtain ⟨⟨hdx, hey⟩, hdy, hex⟩ : ((calculate l.direction).x.IsReal ∧ (calculate m.direction).y.IsReal) ∧
      (calculate l.direction).y.IsReal ∧ (calculate m.direction).x.IsReal := by
    have hdet : (calculate (l.det m)).IsReal := isReal_map.mp (hreal h)
    rw [← isReal_mul, ← isReal_mul, ← isReal_sub]
    exact hdet
  obtain ⟨lqx, lpx⟩ := isReal_sub.mp hdx
  obtain ⟨lqy, lpy⟩ := isReal_sub.mp hdy
  obtain ⟨mqx, mpx⟩ := isReal_sub.mp hex
  obtain ⟨mqy, mpy⟩ := isReal_sub.mp hey
  obtain ⟨lp, hlp⟩ := Point.isReal_iff.mp ⟨lpx, lpy⟩
  obtain ⟨lq, hlq⟩ := Point.isReal_iff.mp ⟨lqx, lqy⟩
  obtain ⟨mp, hmp⟩ := Point.isReal_iff.mp ⟨mpx, mpy⟩
  obtain ⟨mq, hmq⟩ := Point.isReal_iff.mp ⟨mqx, mqy⟩
  have hl : l = exact ⟨lp, lq⟩ := by
    rw [exact, map, ← hlp, ← hlq]
  have hm : m = exact ⟨mp, mq⟩ := by
    rw [exact, map, ← hmp, ← hmq]
  refine ⟨_, _, hl, hm, ?_⟩
  rw [hl, hm, transversal_exact] at h
  exact abs_pos.mp ((mul_nonneg hε (mul_nonneg (Real.sqrt_nonneg _) (Real.sqrt_nonneg _))).trans_lt h)

/-- The four points in another place: the lines exchanged, one of them the other way around, or all
points moved, turned or scaled together. -/
inductive Rearranged : TwoPoints ℝ × TwoPoints ℝ → TwoPoints ℝ × TwoPoints ℝ → Prop
  | swap (l m : TwoPoints ℝ) : Rearranged (l, m) (m, l)
  | reverse_left (l m : TwoPoints ℝ) : Rearranged (l, m) (l.reverse, m)
  | reverse_right (l m : TwoPoints ℝ) : Rearranged (l, m) (l, m.reverse)
  | translate (l m : TwoPoints ℝ) (v : Point ℝ) :
      Rearranged (l, m) (l.map fun p => calculate (p.add v), m.map fun p => calculate (p.add v))
  | rotate (l m : TwoPoints ℝ) (θ : ℝ) :
      Rearranged (l, m)
        (l.map fun p => calculate (rotate θ p), m.map fun p => calculate (rotate θ p))
  | scale (l m : TwoPoints ℝ) (k : ℝ) (hk : k ≠ 0) :
      Rearranged (l, m) (l.map fun p => calculate (p.smul k), m.map fun p => calculate (p.smul k))

/-- A map that turns and scales all points together, and moves them, does not change which lines are
far enough from parallel. -/
theorem transversal_map {f : Point ℝ → Point ℝ} {u v : ℝ} (o : Point ℝ) (huv : 0 < u ^ 2 + v ^ 2)
    (hf : ∀ p, f p = ⟨u * p.x - v * p.y + o.x, v * p.x + u * p.y + o.y⟩) :
    (l.map f).exact.transversal (real ε) (m.map f).exact =
      l.exact.transversal (real ε) m.exact := by
  -- squares of distances and cross products grow by the same factor
  have hquadrance : ∀ a b, (f a).quadrance (f b) = (u ^ 2 + v ^ 2) * a.quadrance b := by
    intro a b
    rw [hf, hf]
    unfold Point.quadrance
    ring
  have hcross : (l.map f).cross (m.map f) = (u ^ 2 + v ^ 2) * l.cross m := by
    unfold cross Point.cross map
    simp only [hf]
    ring
  have hscaled : √((f l.q).quadrance (f l.p)) * √((f m.q).quadrance (f m.p)) =
      (u ^ 2 + v ^ 2) * (√(l.q.quadrance l.p) * √(m.q.quadrance m.p)) := by
    rw [hquadrance, hquadrance, Real.sqrt_mul huv.le, Real.sqrt_mul huv.le]
    linear_combination √(l.q.quadrance l.p) * √(m.q.quadrance m.p) * Real.mul_self_sqrt huv.le
  rw [Bool.eq_iff_iff, transversal_exact, transversal_exact]
  change ε * (√((f l.q).quadrance (f l.p)) * √((f m.q).quadrance (f m.p))) < _ ↔ _
  rw [hscaled, hcross, abs_mul, abs_of_pos huv, mul_left_comm, mul_lt_mul_iff_right₀ huv]

theorem transversal_swap :
    m.exact.transversal (real ε) l.exact = l.exact.transversal (real ε) m.exact := by
  rw [Bool.eq_iff_iff, transversal_exact, transversal_exact, mul_comm √(m.q.quadrance m.p),
    cross_comm, abs_neg]

theorem transversal_reverse :
    l.reverse.exact.transversal (real ε) m.exact = l.exact.transversal (real ε) m.exact := by
  rw [Bool.eq_iff_iff, transversal_exact, transversal_exact]
  have hcross : l.reverse.cross m = -l.cross m := by
    unfold cross Point.cross reverse
    ring
  rw [hcross, abs_neg]
  change ε * (√(l.p.quadrance l.q) * _) < _ ↔ _
  rw [Point.quadrance_comm]

theorem Rearranged.transversal_eq {a b : TwoPoints ℝ × TwoPoints ℝ} (h : Rearranged a b) :
    b.1.exact.transversal (real ε) b.2.exact = a.1.exact.transversal (real ε) a.2.exact := by
  cases h with
  | swap l m => exact transversal_swap
  | reverse_left l m => exact transversal_reverse
  | reverse_right l m =>
      exact transversal_swap.trans (transversal_reverse.trans transversal_swap)
  | translate l m v =>
      refine transversal_map v (u := 1) (v := 0) (by norm_num) fun p => congrArg₂ Point.mk ?_ ?_
      · change p.x + v.x = _
        ring
      · change p.y + v.y = _
        ring
  | rotate l m θ =>
      have hunit : 0 < Real.cos θ ^ 2 + Real.sin θ ^ 2 := by
        rw [Real.cos_sq_add_sin_sq]
        exact one_pos
      refine transversal_map ⟨0, 0⟩ hunit fun p => congrArg₂ Point.mk ?_ ?_
      · change Real.cos θ * p.x + -Real.sin θ * p.y = _
        ring
      · change Real.sin θ * p.x + Real.cos θ * p.y = _
        ring
  | scale l m k hk =>
      have hpos : 0 < k ^ 2 + 0 ^ 2 := by positivity
      refine transversal_map ⟨0, 0⟩ hpos fun p => congrArg₂ Point.mk ?_ ?_
      · change p.x * k = _
        ring
      · change p.y * k = _
        ring

/-! ### Parallel lines -/

/-- The angle between the directions. -/
noncomputable def inclination (l m : TwoPoints ℝ) : ℝ :=
  InnerProductGeometry.angle (l.q.toPlane - l.p.toPlane) (m.q.toPlane - m.p.toPlane)

def Parallel (l m : TwoPoints ℝ) : Prop :=
  line[ℝ, l.p.toPlane, l.q.toPlane] ∥ line[ℝ, m.p.toPlane, m.q.toPlane]

theorem abs_cross : |l.cross m| =
    Real.sin (l.inclination m) * (√(l.q.quadrance l.p) * √(m.q.quadrance m.p)) := by
  rw [inclination, ← Point.norm_toPlane_sub, ← Point.norm_toPlane_sub,
    InnerProductGeometry.sin_angle_mul_norm_mul_norm, Point.inner_toPlane, Point.inner_toPlane,
    Point.inner_toPlane, ← Real.sqrt_sq_eq_abs]
  congr 1
  unfold cross Point.cross Point.dot
  ring

theorem sides_pos (hl : l.p ≠ l.q) (hm : m.p ≠ m.q) :
    0 < √(l.q.quadrance l.p) * √(m.q.quadrance m.p) :=
  mul_pos (Point.side_pos hl.symm) (Point.side_pos hm.symm)

/-- Lines are not far enough from parallel if one is no line, or if they are inclined too little. -/
theorem not_transversal_iff : l.exact.transversal (real ε) m.exact = false ↔
    l.p = l.q ∨ m.p = m.q ∨ Real.sin (l.inclination m) ≤ ε := by
  rw [Bool.eq_false_iff, ne_eq, transversal_exact, not_lt, abs_cross]
  by_cases hl : l.p = l.q
  · simp [hl, Point.quadrance]
  by_cases hm : m.p = m.q
  · simp [hm, Point.quadrance]
  simp only [hl, hm, false_or, mul_le_mul_iff_left₀ (sides_pos hl hm)]

theorem parallel_iff_cross (hl : l.p ≠ l.q) (hm : m.p ≠ m.q) : l.Parallel m ↔ l.cross m = 0 := by
  have hfactor : ∀ k : ℝˣ,
      k • (l.q.toPlane -ᵥ l.p.toPlane) = m.q.toPlane -ᵥ m.p.toPlane ↔
        m.q.x - m.p.x = k * (l.q.x - l.p.x) ∧ m.q.y - m.p.y = k * (l.q.y - l.p.y) := by
    intro k
    rw [Units.smul_def, eq_comm, ← eq_vadd_iff_vsub_eq, Point.toPlane_eq_iff]
    rfl
  rw [Parallel, AffineSubspace.affineSpan_pair_parallel_iff_exists_unit_smul']
  simp only [hfactor]
  constructor
  · rintro ⟨k, hx, hy⟩
    unfold cross Point.cross
    rw [hx, hy]
    ring
  · intro h
    obtain ⟨k, hk, hx, hy⟩ := Point.exists_factor_ne hl.symm hm.symm h
    exact ⟨Units.mk0 k hk, hx, hy⟩

theorem parallel_iff (hl : l.p ≠ l.q) (hm : m.p ≠ m.q) :
    l.Parallel m ↔ Real.sin (l.inclination m) ≤ 0 := by
  have hsin : 0 ≤ Real.sin (l.inclination m) := InnerProductGeometry.sin_angle_nonneg ..
  rw [parallel_iff_cross hl hm, ← abs_eq_zero, abs_cross, mul_eq_zero,
    or_iff_left (sides_pos hl hm).ne', hsin.ge_iff_eq']

end Geometry.TwoPoints

end PlaneFigure
