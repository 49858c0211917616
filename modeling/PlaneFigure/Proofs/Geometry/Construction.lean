import PlaneFigure.Proofs.Geometry.Crossing

/-!
The two points that a line yields, in exact arithmetic, for each way to specify it. If no side of an
angle vanishes they are real, and on the line that is specified. Where there is such a line they are
different, but for the bisectors of straight angles, of which only the vertex is found.
-/

namespace PlaneFigure

open PlaneFigure.Geometry Exact
open scoped EuclideanGeometry

namespace Point

/-- The midpoint of `c` and the point of the ray `ba` as far from `b` as `c`. -/
noncomputable def bisecting (a b c : Point ℝ) : Point ℝ :=
  let k := √(b.quadrance c) / √(b.quadrance a)
  ⟨(b.x + (a.x - b.x) * k + c.x) / 2, (b.y + (a.y - b.y) * k + c.y) / 2⟩

/-- The point `c`, turned about `b` by `θ`. -/
noncomputable def turned (θ : ℝ) (b c : Point ℝ) : Point ℝ :=
  ⟨b.x + (Real.cos θ * (c.x - b.x) + -Real.sin θ * (c.y - b.y)),
    b.y + (Real.sin θ * (c.x - b.x) + Real.cos θ * (c.y - b.y))⟩

variable {a b c : Point ℝ}

theorem angle_eq_arccos : ∠ a.toPlane b.toPlane c.toPlane =
    Real.arccos (dot a b c b / (√(a.quadrance b) * √(c.quadrance b))) := by
  rw [← inner_toPlane, ← norm_toPlane_sub, ← norm_toPlane_sub]
  rfl

theorem abs_dot_le : |dot a b c b| ≤ √(a.quadrance b) * √(c.quadrance b) := by
  rw [← inner_toPlane, ← norm_toPlane_sub, ← norm_toPlane_sub]
  exact abs_real_inner_le_norm ..

/-- An angle is straight if its sides are opposite multiples of each other. -/
theorem angle_eq_pi_iff (hne : a ≠ b) : ∠ a.toPlane b.toPlane c.toPlane = Real.pi ↔
    ∃ r < 0, c.x - b.x = r * (a.x - b.x) ∧ c.y - b.y = r * (a.y - b.y) := by
  have hside : a.toPlane -ᵥ b.toPlane ≠ 0 := vsub_ne_zero.mpr (toPlane_injective.ne hne)
  rw [EuclideanGeometry.angle, InnerProductGeometry.angle_eq_pi_iff, and_iff_right hside]
  refine exists_congr fun r => and_congr_right fun _ => ?_
  rw [← eq_vadd_iff_vsub_eq, toPlane_eq_iff]
  rfl

/-- Turning keeps the distance. -/
theorem quadrance_turned (θ : ℝ) : (turned θ b c).quadrance b = c.quadrance b := by
  unfold quadrance turned
  linear_combination ((b.x - c.x) ^ 2 + (b.y - c.y) ^ 2) * Real.sin_sq_add_cos_sq θ

theorem upright_eq_iff {x : Point ℝ} : upright a b x = x ↔ a = b := by
  constructor
  · intro h
    have hx := congrArg Point.x h
    have hy := congrArg Point.y h
    simp only [upright] at hx hy
    exact eq_of_sub_eq_zero (by linear_combination hy) (by linear_combination -hx)
  · rintro rfl
    simp [upright]

/-- Along both sides of the angle, the bisector goes equally far. -/
theorem dot_bisecting (ha : a ≠ b) (hc : c ≠ b) :
    let w := (√(a.quadrance b) * √(c.quadrance b) + dot a b c b) / 2
    dot (bisecting a b c) b a b / √(a.quadrance b) = w / √(a.quadrance b) ∧
      dot (bisecting a b c) b c b / √(c.quadrance b) = w / √(a.quadrance b) := by
  intro w
  have hp := (side_pos ha).ne'
  have hq := (side_pos hc).ne'
  have hpp := mul_self_side a b
  have hqq := mul_self_side c b
  simp only [w, bisecting, b.quadrance_comm]
  generalize √(a.quadrance b) = p at hp hpp ⊢
  generalize √(c.quadrance b) = q at hq hqq ⊢
  have hk : q / p * p = q := div_mul_cancel₀ _ hp
  generalize q / p = k at hk ⊢
  unfold quadrance at hpp hqq
  unfold dot
  constructor
  · congr 1
    linear_combination p / 2 * hk - k / 2 * hpp
  · rw [div_eq_div_iff hq hp]
    linear_combination
      ((a.x - b.x) * (c.x - b.x) + (a.y - b.y) * (c.y - b.y)) / 2 * hk - p / 2 * hqq

/-- Only the bisector of a straight angle leads nowhere. -/
theorem bisecting_eq_iff (ha : a ≠ b) (hc : c ≠ b) :
    bisecting a b c = b ↔ ∠ a.toPlane b.toPlane c.toPlane = Real.pi := by
  have hside := side_pos ha.symm
  rw [angle_eq_pi_iff ha]
  constructor
  · intro h
    have hx := congrArg Point.x h
    have hy := congrArg Point.y h
    refine ⟨-(√(b.quadrance c) / √(b.quadrance a)), ?_, ?_, ?_⟩
    · exact neg_neg_of_pos (div_pos (side_pos hc.symm) hside)
    · simp only [bisecting] at hx
      linear_combination 2 * hx
    · simp only [bisecting] at hy
      linear_combination 2 * hy
  · rintro ⟨r, hr, hx, hy⟩
    have hquadrance : b.quadrance c = (-r) ^ 2 * b.quadrance a := by
      unfold quadrance
      linear_combination -(b.x - c.x + r * (b.x - a.x)) * hx - (b.y - c.y + r * (b.y - a.y)) * hy
    have hratio : √(b.quadrance c) / √(b.quadrance a) = -r := by
      rw [hquadrance, Real.sqrt_mul (sq_nonneg _), Real.sqrt_sq (neg_nonneg.mpr hr.le),
        mul_div_cancel_right₀ _ hside.ne']
    unfold bisecting
    rw [hratio]
    refine congrArg₂ mk ?_ ?_
    · linear_combination hx / 2
    · linear_combination hy / 2

end Point

namespace Exact

variable {a b c : Point ℝ}

theorem calculate_cosAngle_exact (ha : a ≠ b) (hc : c ≠ b) :
    calculate (cosAngle a.exact b.exact c.exact) =
      real (Point.dot a b c b / (√(a.quadrance b) * √(c.quadrance b))) := by
  have hne : √(b.quadrance c) * √(a.quadrance b) * 2 ≠ 0 :=
    mul_ne_zero (mul_pos (Point.side_pos hc.symm) (Point.side_pos ha)).ne' two_ne_zero
  have hdot : b.quadrance c + a.quadrance b - c.quadrance a = Point.dot a b c b * 2 := by
    unfold Point.quadrance Point.dot
    ring
  rw [calculate_cosAngle, calculate_sides_exact]
  simp only [real_mul, real_add, real_sub, mul_self_side, literal_two, real_div hne, hdot,
    mul_div_mul_right _ _ (two_ne_zero (α := ℝ))]
  rw [mul_comm √(b.quadrance c), b.quadrance_comm]

/-- Nothing of a cosine is cut off. -/
theorem calculate_clampUnit_exact {t : ℝ} (hlow : -1 ≤ t) (hhigh : t ≤ 1) :
    calculate (clampUnit (real t)) = real t := by
  have hclamp : -max (-max t (-1)) (-1) = t := by
    rw [max_eq_left hlow, max_eq_left (neg_le_neg hhigh), neg_neg]
  rw [calculate_clampUnit, literal_one]
  change real (-max (-max t (-1)) (-1)) = _
  rw [hclamp]

/-- Arc cosines are taken only of numbers that have one. -/
theorem clampUnit_mem {t : Exact} {x : ℝ} (h : calculate (clampUnit t) = real x) :
    x ∈ Set.Icc (-1) 1 := by
  rw [calculate_clampUnit, literal_one] at h
  cases t with
  | undefined => cases h
  | real t =>
      cases h
      have hlow : -max t (-1) ≤ 1 := neg_le.mp (le_max_right t (-1))
      exact ⟨neg_le_neg (max_le hlow (by norm_num)), neg_le.mp (le_max_right (-max t (-1)) (-1))⟩

/-- The cosine that the law of cosines gives is one, so the angle is that of the plane. -/
theorem calculate_angle_exact (ha : a ≠ b) (hc : c ≠ b) :
    calculate (angle a.exact b.exact c.exact) =
      real (∠ a.toPlane b.toPlane c.toPlane) := by
  obtain ⟨hlow, hhigh⟩ := abs_le.mp (abs_real_inner_div_norm_mul_norm_le_one
    (a.toPlane - b.toPlane) (c.toPlane - b.toPlane))
  rw [Point.inner_toPlane, Point.norm_toPlane_sub, Point.norm_toPlane_sub] at hlow hhigh
  rw [calculate_angle, calculate_cosAngle_exact ha hc, calculate_clampUnit_exact hlow hhigh,
    Point.angle_eq_arccos]
  rfl

theorem calculate_bisector_exact (ha : a ≠ b) :
    calculate (bisector a.exact b.exact c.exact) =
      TwoPoints.exact ⟨b, Point.bisecting a b c⟩ := by
  let k := √(b.quadrance c) / √(b.quadrance a)
  have hray : (⟨b.exact.x + (a.exact.x - b.exact.x) * real k,
      b.exact.y + (a.exact.y - b.exact.y) * real k⟩ : Point Exact) =
        Point.exact ⟨b.x + (a.x - b.x) * k, b.y + (a.y - b.y) * k⟩ :=
    rfl
  rw [calculate_bisector, calculate_dist_exact, calculate_dist_exact,
    real_div (Point.side_pos ha.symm).ne']
  dsimp only
  rw [hray, calculate_midpoint_exact]
  rfl

end Exact

namespace Geometry.Line

/-! ### The points of a line -/

/-- No side of an angle vanishes. -/
def Angled : Line ℝ → Prop
  | internalBisector a b c | externalBisector a b c => a ≠ b ∧ c ≠ b
  | atAngle _ _ d e f => d ≠ e ∧ f ≠ e
  | _ => True

/-- The two points of a line, if no side of an angle vanishes. -/
noncomputable def pair : Line ℝ → TwoPoints ℝ
  | connecting a b => ⟨a, b⟩
  | parallel x a b => ⟨x, ⟨x.x + (b.x - a.x), x.y + (b.y - a.y)⟩⟩
  | perpendicular x a b => ⟨x, .upright a b x⟩
  | mediator a b =>
    let m : Point ℝ := ⟨(a.x + b.x) / 2, (a.y + b.y) / 2⟩
    ⟨m, .upright a b m⟩
  | internalBisector a b c => ⟨b, .bisecting a b c⟩
  | externalBisector a b c => ⟨b, .upright (.bisecting a b c) b b⟩
  | atAngle b c d e f => ⟨b, .turned (∠ d.toPlane e.toPlane f.toPlane) b c⟩

theorem calculate_points_exact {l : Line ℝ} (h : l.Angled) :
    calculate (l.map real).points = l.pair.exact := by
  cases l with
  | connecting a b => rfl
  | parallel x a b => rfl
  | perpendicular x a b => rfl
  | mediator a b =>
      change calculate (mediator a.exact b.exact).points = _
      rw [calculate_mediator, calculate_midpoint_exact]
      rfl
  | internalBisector a b c => exact calculate_bisector_exact h.1
  | externalBisector a b c =>
      change calculate (externalBisector a.exact b.exact c.exact).points = _
      rw [calculate_externalBisector, calculate_bisector_exact h.1]
      rfl
  | atAngle b c d e f =>
      change calculate (atAngle b.exact c.exact d.exact e.exact f.exact).points = _
      rw [calculate_atAngle, calculate_angle_exact h.1 h.2, calculate_rotate]
      rfl

/-! ### What the points have in common with the line -/

/-- The line through two points is the one that is specified: by points on it and by its direction,
which for the bisectors tells the two apart, and for an angle also to which side it is turned. -/
def IsThrough (l : Line ℝ) (m : TwoPoints ℝ) : Prop :=
  match l with
  | connecting a b => m.Contains a ∧ m.Contains b
  | parallel x a b => m.Contains x ∧ Point.cross m.q m.p b a = 0
  | perpendicular x a b => m.Contains x ∧ Point.dot m.q m.p b a = 0
  | mediator a b =>
    ‖m.p.toPlane - a.toPlane‖ = ‖m.p.toPlane - b.toPlane‖ ∧
      ‖m.q.toPlane - a.toPlane‖ = ‖m.q.toPlane - b.toPlane‖
  | internalBisector a b c =>
    m.Contains b ∧
      Point.dot m.q m.p a b / ‖a.toPlane - b.toPlane‖ =
        Point.dot m.q m.p c b / ‖c.toPlane - b.toPlane‖ ∧
      0 ≤ Point.dot m.q m.p a b / ‖a.toPlane - b.toPlane‖
  | externalBisector a b c =>
    m.Contains b ∧ ∃ k : TwoPoints ℝ,
      calculate ((internalBisector a b c).map real).points = k.exact ∧
        Point.dot m.q m.p k.q k.p = 0
  | atAngle b c d e f =>
    let θ := ∠ d.toPlane e.toPlane f.toPlane
    m.Contains b ∧ ‖m.q.toPlane - m.p.toPlane‖ = ‖c.toPlane - b.toPlane‖ ∧
      Point.dot m.q m.p c b = ‖c.toPlane - b.toPlane‖ ^ 2 * Real.cos θ ∧
      Point.cross c b m.q m.p = ‖c.toPlane - b.toPlane‖ ^ 2 * Real.sin θ

theorem isThrough_pair {l : Line ℝ} (h : l.Angled) : l.IsThrough l.pair := by
  have hleft : ∀ m : TwoPoints ℝ, m.Contains m.p := fun m => left_mem_affineSpan_pair ..
  cases l with
  | connecting a b => exact ⟨hleft _, right_mem_affineSpan_pair ..⟩
  | parallel x a b =>
      refine ⟨hleft _, ?_⟩
      unfold Point.cross pair
      ring
  | perpendicular x a b =>
      refine ⟨hleft _, ?_⟩
      unfold Point.dot pair Point.upright
      ring
  | mediator a b =>
      simp only [IsThrough, Point.norm_toPlane_sub]
      constructor <;> congr 1 <;> unfold pair Point.upright Point.quadrance <;> ring
  | internalBisector a b c =>
      obtain ⟨ha, hc⟩ := Point.dot_bisecting h.1 h.2
      have hnonneg : 0 ≤ √(a.quadrance b) * √(c.quadrance b) + Point.dot a b c b := by
        linarith [neg_le_of_abs_le (Point.abs_dot_le (a := a) (b := b) (c := c))]
      simp only [IsThrough, Point.norm_toPlane_sub]
      refine ⟨hleft _, ha.trans hc.symm, ?_⟩
      rw [pair, ha]
      exact div_nonneg (div_nonneg hnonneg zero_le_two) (Real.sqrt_nonneg _)
  | externalBisector a b c =>
      refine ⟨hleft _, _, calculate_points_exact (l := internalBisector a b c) h, ?_⟩
      unfold Point.dot pair Point.upright
      ring
  | atAngle b c d e f =>
      let θ := ∠ d.toPlane e.toPlane f.toPlane
      simp only [IsThrough, Point.norm_toPlane_sub, Real.sq_sqrt (Point.quadrance_nonneg ..)]
      refine ⟨hleft _, congrArg Real.sqrt (Point.quadrance_turned θ), ?_, ?_⟩
      · change Point.dot (.turned θ b c) b c b = c.quadrance b * Real.cos θ
        unfold Point.quadrance Point.turned Point.dot
        ring
      · change Point.cross c b (.turned θ b c) b = c.quadrance b * Real.sin θ
        unfold Point.quadrance Point.turned Point.cross
        ring

/-- If no side of an angle vanishes, the points of a line are real, and the line through them is the
one that is specified. -/
theorem points_isThrough (l : Line ℝ) (h : l.Angled) :
    ∃ m : TwoPoints ℝ, calculate (l.map real).points = m.exact ∧ l.IsThrough m :=
  ⟨l.pair, calculate_points_exact h, isThrough_pair h⟩

/-- A line at a right angle to another. -/
theorem points_isThrough_right_angle :
    let l : Line ℝ := .atAngle ⟨0, 0⟩ ⟨2, 0⟩ ⟨1, 0⟩ ⟨0, 0⟩ ⟨0, 1⟩
    l.Angled ∧ ∃ m : TwoPoints ℝ, calculate (l.map real).points = m.exact ∧ l.IsThrough m := by
  intro l
  have hangled : l.Angled := ⟨by simp, by simp⟩
  exact ⟨hangled, points_isThrough l hangled⟩

/-! ### Where the points are different -/

/-- There is such a line. -/
def Determined : Line ℝ → Prop
  | connecting a b | parallel _ a b | perpendicular _ a b | mediator a b => a ≠ b
  | internalBisector a b c | externalBisector a b c => a ≠ b ∧ c ≠ b
  | atAngle b c d e f => b ≠ c ∧ d ≠ e ∧ f ≠ e

/-- The bisectors of an angle whose sides point in opposite directions. -/
def Straight : Line ℝ → Prop
  | internalBisector a b c | externalBisector a b c =>
    ∠ a.toPlane b.toPlane c.toPlane = Real.pi
  | _ => False

theorem Determined.angled {l : Line ℝ} (h : l.Determined) : l.Angled := by
  cases l with
  | internalBisector a b c => exact h
  | externalBisector a b c => exact h
  | atAngle b c d e f => exact h.2
  | _ => trivial

theorem Determined.pair_eq_iff {l : Line ℝ} (h : l.Determined) :
    l.pair.p = l.pair.q ↔ l.Straight := by
  have hnever : ∀ {p q : Point ℝ}, p ≠ q → (p = q ↔ False) := fun hne => iff_of_false hne not_false
  cases l with
  | connecting a b => exact hnever h
  | parallel x a b =>
      refine hnever fun hx => h.symm (Point.eq_of_sub_eq_zero ?_ ?_)
      · exact left_eq_add.mp (congrArg Point.x hx)
      · exact left_eq_add.mp (congrArg Point.y hx)
  | perpendicular x a b => exact hnever fun hx => h (Point.upright_eq_iff.mp hx.symm)
  | mediator a b => exact hnever fun hx => h (Point.upright_eq_iff.mp hx.symm)
  | internalBisector a b c => exact eq_comm.trans (Point.bisecting_eq_iff h.1 h.2)
  | externalBisector a b c =>
      exact (eq_comm.trans Point.upright_eq_iff).trans (Point.bisecting_eq_iff h.1 h.2)
  | atAngle b c d e f =>
      refine hnever fun hb => h.1 ?_
      have hzero := Point.quadrance_eq_zero.mpr hb.symm
      change (Point.turned _ b c).quadrance b = 0 at hzero
      rw [Point.quadrance_turned] at hzero
      exact (Point.quadrance_eq_zero.mp hzero).symm

end Geometry.Line

end PlaneFigure
