import PlaneFigure.Proofs.Geometry.Construction
import PlaneFigure.Proofs.Number.Order
import PlaneFigure.Proofs.Simulation.Geometry

/-!
Angles by the law of cosines. In exact arithmetic, what the arc cosine is applied to is the cosine of
the angle; it depends on the shape of the triangle only, and the bounds at which it is cut off are
those of Cauchy and Schwarz. On doubles it is never out of these bounds, whatever was rounded before.
-/

namespace PlaneFigure

open PlaneFigure.Geometry Exact

namespace Geometry

variable {S R μ : Type} [Number R] [Scalar S R μ]

/-- What the arc cosine of an angle is applied to. -/
def saturatedCosine (a b c : Point S) : StateM μ S := do
  clampUnit (← cosAngle a b c)

theorem angle_eq_acos (a b c : Point S) :
    (angle a b c : StateM μ S) = saturatedCosine a b c >>= Scalar.acos :=
  rfl

end Geometry

namespace Point

variable {a b c : Point ℝ}

/-- The maps that keep shapes: translations, rotations, the reflection in an axis, scalings, and what
they are composed to. -/
inductive Similarity : (Point ℝ → Point ℝ) → Prop
  | translate (v : Point ℝ) : Similarity fun p => calculate (p.add v)
  | rotate (θ : ℝ) : Similarity fun p => calculate (Geometry.rotate θ p)
  | reflect : Similarity fun p => ⟨p.x, -p.y⟩
  | scale (k : ℝ) (hk : k ≠ 0) : Similarity fun p => calculate (p.smul k)
  | comp {f g : Point ℝ → Point ℝ} (hf : Similarity f) (hg : Similarity g) : Similarity (f ∘ g)

/-- Squares of distances all change by one factor. -/
theorem Similarity.quadrance {f : Point ℝ → Point ℝ} (h : Similarity f) :
    ∃ k > 0, ∀ p q, (f p).quadrance (f q) = k * p.quadrance q := by
  induction h with
  | translate v =>
      refine ⟨1, one_pos, fun p q => ?_⟩
      change (p.x + v.x - (q.x + v.x)) ^ 2 + (p.y + v.y - (q.y + v.y)) ^ 2 = _
      unfold Point.quadrance
      ring
  | rotate θ =>
      refine ⟨1, one_pos, fun p q => ?_⟩
      change (Real.cos θ * p.x + -Real.sin θ * p.y - (Real.cos θ * q.x + -Real.sin θ * q.y)) ^ 2 +
        (Real.sin θ * p.x + Real.cos θ * p.y - (Real.sin θ * q.x + Real.cos θ * q.y)) ^ 2 = _
      unfold Point.quadrance
      linear_combination ((p.x - q.x) ^ 2 + (p.y - q.y) ^ 2) * Real.sin_sq_add_cos_sq θ
  | reflect =>
      refine ⟨1, one_pos, fun p q => ?_⟩
      unfold Point.quadrance
      ring
  | scale k hk =>
      refine ⟨k ^ 2, by positivity, fun p q => ?_⟩
      change (p.x * k - q.x * k) ^ 2 + (p.y * k - q.y * k) ^ 2 = _
      unfold Point.quadrance
      ring
  | comp _ _ ihf ihg =>
      obtain ⟨k, hk, hf⟩ := ihf
      obtain ⟨l, hl, hg⟩ := ihg
      refine ⟨k * l, mul_pos hk hl, fun p q => ?_⟩
      rw [Function.comp_apply, Function.comp_apply, hf, hg, mul_assoc]

theorem Similarity.injective {f : Point ℝ → Point ℝ} (h : Similarity f) :
    Function.Injective f := by
  obtain ⟨k, hk, hf⟩ := h.quadrance
  intro p q hpq
  have hzero := hf p q
  rw [quadrance_eq_zero.mpr hpq, eq_comm, mul_eq_zero] at hzero
  exact quadrance_eq_zero.mp (hzero.resolve_left hk.ne')

/-- Dot products change by the factor by which squares of distances do. -/
theorem dot_map {f : Point ℝ → Point ℝ} {k : ℝ}
    (hf : ∀ p q, (f p).quadrance (f q) = k * p.quadrance q) (a b c : Point ℝ) :
    dot (f a) (f b) (f c) (f b) = k * dot a b c b := by
  have h := quadrance_eq (f b) (f c) (f a)
  have h' := quadrance_eq b c a
  rw [hf, hf, hf] at h
  linear_combination (h - k * h') / 2

/-- The cosine of the angle at `b`. -/
noncomputable def cosine (a b c : Point ℝ) : ℝ :=
  dot a b c b / (√(a.quadrance b) * √(c.quadrance b))

theorem cosine_eq (a b c : Point ℝ) :
    cosine a b c = inner ℝ (a.toPlane - b.toPlane) (c.toPlane - b.toPlane) /
      (‖a.toPlane - b.toPlane‖ * ‖c.toPlane - b.toPlane‖) := by
  rw [cosine, inner_toPlane, norm_toPlane_sub, norm_toPlane_sub]

theorem cosine_mem (a b c : Point ℝ) : cosine a b c ∈ Set.Icc (-1) 1 := by
  rw [cosine_eq]
  exact abs_le.mp (abs_real_inner_div_norm_mul_norm_le_one ..)

theorem cosine_comm (a b c : Point ℝ) : cosine c b a = cosine a b c := by
  rw [cosine_eq, cosine_eq, real_inner_comm, mul_comm]

theorem Similarity.cosine_eq {f : Point ℝ → Point ℝ} (h : Similarity f) (a b c : Point ℝ) :
    cosine (f a) (f b) (f c) = cosine a b c := by
  obtain ⟨k, hk, hf⟩ := h.quadrance
  have hscaled : √((f a).quadrance (f b)) * √((f c).quadrance (f b)) =
      k * (√(a.quadrance b) * √(c.quadrance b)) := by
    rw [hf, hf, Real.sqrt_mul hk.le, Real.sqrt_mul hk.le]
    linear_combination √(a.quadrance b) * √(c.quadrance b) * Real.mul_self_sqrt hk.le
  rw [cosine, cosine, dot_map hf, hscaled, mul_div_mul_left _ _ hk.ne']

theorem cosine_eq_one_iff (ha : a ≠ b) (hc : c ≠ b) :
    cosine a b c = 1 ↔ SameRay ℝ (a.toPlane - b.toPlane) (c.toPlane - b.toPlane) := by
  have ha' := sub_ne_zero.mpr (toPlane_injective.ne ha)
  have hc' := sub_ne_zero.mpr (toPlane_injective.ne hc)
  rw [cosine_eq, real_inner_div_norm_mul_norm_eq_one_iff, and_iff_right ha',
    ← exists_pos_left_iff_sameRay ha' hc']
  simp only [eq_comm]

theorem cosine_eq_neg_one_iff (ha : a ≠ b) (hc : c ≠ b) :
    cosine a b c = -1 ↔ SameRay ℝ (a.toPlane - b.toPlane) (b.toPlane - c.toPlane) := by
  have ha' := sub_ne_zero.mpr (toPlane_injective.ne ha)
  have hc' := sub_ne_zero.mpr (toPlane_injective.ne hc.symm)
  have hopposite : cosine a b c = -(inner ℝ (a.toPlane - b.toPlane) (b.toPlane - c.toPlane) /
      (‖a.toPlane - b.toPlane‖ * ‖b.toPlane - c.toPlane‖)) := by
    rw [cosine_eq, ← neg_sub b.toPlane c.toPlane, inner_neg_right, norm_neg, neg_div]
  rw [hopposite, neg_inj, real_inner_div_norm_mul_norm_eq_one_iff, and_iff_right ha',
    ← exists_pos_left_iff_sameRay ha' hc']
  simp only [eq_comm]

end Point

theorem Exact.calculate_saturatedCosine {a b c : Point ℝ} (ha : a ≠ b) (hc : c ≠ b) :
    calculate (cosAngle a.exact b.exact c.exact) = real (a.cosine b c) ∧
      calculate (saturatedCosine a.exact b.exact c.exact) = real (a.cosine b c) := by
  have hcosine : calculate (cosAngle a.exact b.exact c.exact) = real (a.cosine b c) :=
    calculate_cosAngle_exact ha hc
  refine ⟨hcosine, ?_⟩
  rw [saturatedCosine, calculate_bind, hcosine]
  exact calculate_clampUnit_exact (Point.cosine_mem a b c).1 (Point.cosine_mem a b c).2

namespace Double

/-- The number is in the domain of the arc cosine; so it is a number at all. -/
def InUnit (x : Float) : Prop := -1.0 ≤ x ∧ x ≤ 1.0

theorem clampUnit_inUnit (x : Float) : InUnit (calculate (clampUnit x)) := by
  have hone : (-1.0 : Float) ≤ 1.0 := by decide +kernel
  have hnumber : (-1.0 : Float).isNaN = false := by decide +kernel
  have hneg : -(-1.0 : Float) = 1.0 := neg_neg 1.0
  -- the first maximum is not below the least cosine, so its negative is not above the greatest
  have hlow : -largerDouble x (-1.0) ≤ 1.0 := hneg ▸ neg_le_neg (le_larger_right hnumber)
  have hhigh : largerDouble (-largerDouble x (-1.0)) (-1.0) ≤ 1.0 := larger_le hlow hone
  exact ⟨neg_le_neg hhigh, hneg ▸ neg_le_neg (le_larger_right hnumber)⟩

/-- Nothing changes within the bounds. -/
theorem clampUnit_of_inUnit {x : Float} (h : InUnit x) : calculate (clampUnit x) = x := by
  change -largerDouble (-largerDouble x (-1.0)) (-1.0) = x
  rw [larger_of_le h.1, larger_of_le (neg_le_neg h.2), neg_neg]

/-- The values of a formula are cut off as numbers are. -/
theorem clampUnit_value {g : Graph Float} (hg : g.WellFormed) {f : Formula Float}
    (hf : f.root < g.size) (ρ : Nat → Float) :
    let r := (clampUnit f : StateM (Graph Float) (Formula Float)) g
    r.2.value ρ r.1 = calculate (clampUnit (g.value ρ f)) := by
  have : Stands (⟨g, hg, {ρ}⟩ : World Float) f (g.value ρ f) := by
    refine ⟨hf, ?_⟩
    rintro _ rfl
    rfl
  have hrun : Simulates (OnGraph (World.basis ⟨g, hg, {ρ}⟩)) ⟨g, hg, {ρ}⟩
      (clampUnit f : StateM (Graph Float) (Formula Float)) (clampUnit (g.value ρ f)) := .clampUnit
  exact hrun.value_eq.2

end Double

/-- An angle is the arc cosine of what is cut off. In exact arithmetic, if the angle has two sides,
this is its cosine: it is between -1 and 1 anyway, so nothing is cut off; it does not depend on the
order of the sides, nor on where the figure is, how it is turned, whether it is reflected and how
large it is; and it is 1 or -1 just if the sides point in the same or in opposite directions. On
doubles, what the arc cosine is applied to is between -1 and 1 whatever it was before, and what was
between them is not changed; and so are the values of formulas, whatever the variables. -/
theorem Geometry.angle_of_cosine :
    (∀ (S R μ : Type) [Number R] [Scalar S R μ] (a b c : Point S),
      (angle a b c : StateM μ S) = saturatedCosine a b c >>= Scalar.acos) ∧
    (∀ a b c : Point ℝ, a ≠ b → c ≠ b →
      let t := inner ℝ (a.toPlane - b.toPlane) (c.toPlane - b.toPlane) /
        (‖a.toPlane - b.toPlane‖ * ‖c.toPlane - b.toPlane‖)
      calculate (angle a.exact b.exact c.exact) = real (Real.arccos t) ∧
      calculate (cosAngle a.exact b.exact c.exact) = real t ∧
      calculate (saturatedCosine a.exact b.exact c.exact) = real t ∧ t ∈ Set.Icc (-1) 1 ∧
      calculate (saturatedCosine c.exact b.exact a.exact) = real t ∧
      (∀ f, Point.Similarity f →
        calculate (saturatedCosine (f a).exact (f b).exact (f c).exact) = real t) ∧
      (t = 1 ↔ SameRay ℝ (a.toPlane - b.toPlane) (c.toPlane - b.toPlane)) ∧
      (t = -1 ↔ SameRay ℝ (a.toPlane - b.toPlane) (b.toPlane - c.toPlane))) ∧
    (∀ x : Float, Double.InUnit (calculate (clampUnit x)) ∧
      (Double.InUnit x → calculate (clampUnit x) = x)) ∧
    ∀ (g : Graph Float) (f : Formula Float), g.WellFormed → f.root < g.size → ∀ ρ,
      let r := (clampUnit f : StateM (Graph Float) (Formula Float)) g
      Double.InUnit (r.2.value ρ r.1) ∧
        (Double.InUnit (g.value ρ f) → r.2.value ρ r.1 = g.value ρ f) := by
  refine ⟨fun _ _ _ _ _ => angle_eq_acos, fun a b c ha hc => ?_,
    fun x => ⟨Double.clampUnit_inUnit x, Double.clampUnit_of_inUnit⟩, ?_⟩
  · intro t
    obtain ⟨hcosine, hsaturated⟩ := calculate_saturatedCosine ha hc
    have hangle := calculate_angle_exact ha hc
    rw [show t = a.cosine b c from (Point.cosine_eq a b c).symm]
    refine ⟨Point.cosine_eq a b c ▸ hangle, hcosine, hsaturated, Point.cosine_mem a b c, ?_,
      fun f hf => ?_, Point.cosine_eq_one_iff ha hc, Point.cosine_eq_neg_one_iff ha hc⟩
    · rw [(calculate_saturatedCosine hc ha).2, Point.cosine_comm]
    · rw [(calculate_saturatedCosine (hf.injective.ne ha) (hf.injective.ne hc)).2, hf.cosine_eq]
  · intro g f hg hf ρ r
    rw [show r.2.value ρ r.1 = _ from Double.clampUnit_value hg hf ρ]
    exact ⟨Double.clampUnit_inUnit _, Double.clampUnit_of_inUnit⟩

/-- A right angle, what is not a number, and a variable. -/
theorem Geometry.angle_of_cosine_right :
    let a : Point ℝ := ⟨3, 0⟩
    let b : Point ℝ := ⟨0, 0⟩
    let c : Point ℝ := ⟨0, 4⟩
    let g : Graph Float := ⟨#[.var 0]⟩
    let r := (clampUnit ⟨0⟩ : StateM (Graph Float) (Formula Float)) g
    (a ≠ b ∧ c ≠ b) ∧ calculate (saturatedCosine a.exact b.exact c.exact) = real 0 ∧
      Double.InUnit (calculate (clampUnit Float.nan)) ∧ g.WellFormed ∧ 0 < g.size ∧
      Double.InUnit (r.2.value (fun _ => 2.0) r.1) := by
  intro a b c g r
  have hne : a ≠ b ∧ c ≠ b := by norm_num [a, b, c]
  obtain ⟨-, hexact, hdouble, hformula⟩ := angle_of_cosine
  have hg : g.WellFormed :=
    (Graph.push_grown Graph.empty_wellFormed (by simp [Node.children])).wellFormed
  refine ⟨hne, ?_, (hdouble _).1, hg, Nat.one_pos, (hformula g ⟨0⟩ hg Nat.one_pos _).1⟩
  obtain ⟨-, -, hsaturated, -⟩ := hexact a b c hne.1 hne.2
  rw [hsaturated, Point.inner_toPlane]
  norm_num [Point.dot, a, b, c]

end PlaneFigure
