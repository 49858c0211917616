import PlaneFigure.Proofs.Geometry.Plane

/-!
Triangles with real coordinates. Circumcenter and orthocenter are given as barycenters, and shown to
have the property that they are named for in every triangle that is not degenerate.
-/

namespace PlaneFigure

namespace Point

variable (a b c : Point ℝ)

/-- The sum of the points times the weights, divided by the sum of the weights. -/
noncomputable def barycenter (x y z : ℝ) : Point ℝ :=
  ⟨(x * a.x + y * b.x + z * c.x) / (x + y + z), (x * a.y + y * b.y + z * c.y) / (x + y + z)⟩

/-- Twice the signed area. -/
def doubleArea : ℝ := cross b a c a

/-- The center of the circle through three points. -/
noncomputable def circumcenter : Point ℝ :=
  barycenter a b c (b.quadrance c * dot b a c a) (c.quadrance a * dot c b a b)
    (a.quadrance b * dot a c b c)

/-- The point that the altitudes have in common. -/
noncomputable def orthocenter : Point ℝ :=
  barycenter a b c (dot c b a b * dot a c b c) (dot a c b c * dot b a c a)
    (dot b a c a * dot c b a b)

theorem circumcenter_weights :
    b.quadrance c * dot b a c a + c.quadrance a * dot c b a b + a.quadrance b * dot a c b c =
      2 * doubleArea a b c ^ 2 := by
  unfold quadrance dot doubleArea cross
  ring

theorem orthocenter_weights :
    dot c b a b * dot a c b c + dot a c b c * dot b a c a + dot b a c a * dot c b a b =
      doubleArea a b c ^ 2 := by
  unfold dot doubleArea cross
  ring

theorem doubleArea_rotate : doubleArea b c a = doubleArea a b c := by
  unfold doubleArea cross
  ring

/-- The law of cosines, with the angle at `a` as a dot product. -/
theorem quadrance_eq (p : Point ℝ) :
    p.quadrance b = p.quadrance a + a.quadrance b - 2 * dot p a b a := by
  unfold quadrance dot
  ring

/-- Seen from a corner, a barycenter is a combination of the sides. -/
theorem dot_barycenter {x y z s : ℝ} (hs : x + y + z = s) (hne : s ≠ 0) (p q : Point ℝ) :
    dot (barycenter a b c x y z) a p q * s = y * dot b a p q + z * dot c a p q := by
  subst hs
  unfold dot barycenter
  field_simp
  ring

variable {a b c}

/-- Two corners of a triangle that is not degenerate are apart. -/
theorem ne_of_doubleArea (h : doubleArea a b c ≠ 0) : a ≠ b := by
  rintro rfl
  apply h
  unfold doubleArea cross
  ring

/-- Two points are the same if they look the same along two sides of a triangle. -/
theorem ext_of_dot (h : doubleArea a b c ≠ 0) {p q : Point ℝ} (hb : dot p a b a = dot q a b a)
    (hc : dot p a c a = dot q a c a) : p = q := by
  obtain ⟨px, py⟩ := p
  obtain ⟨qx, qy⟩ := q
  unfold doubleArea cross at h
  simp only [dot] at hb hc
  -- Cramer's rule for the two coordinates
  congr 1 <;> apply mul_right_cancel₀ h
  · linear_combination (c.y - a.y) * hb - (b.y - a.y) * hc
  · linear_combination (b.x - a.x) * hc - (c.x - a.x) * hb

theorem circumcenter_rotate : circumcenter b c a = circumcenter a b c := by
  unfold circumcenter barycenter
  congr 2 <;> ring

theorem circumcenter_quadrance (h : doubleArea a b c ≠ 0) :
    (circumcenter a b c).quadrance a = (circumcenter a b c).quadrance b := by
  have hne : 2 * doubleArea a b c ^ 2 ≠ 0 := by positivity
  have hdot := dot_barycenter a b c (circumcenter_weights a b c) hne b a
  have hweights : c.quadrance a * dot c b a b * dot b a b a +
      a.quadrance b * dot a c b c * dot c a b a =
        a.quadrance b / 2 * (2 * doubleArea a b c ^ 2) := by
    unfold quadrance dot doubleArea cross
    ring
  have hmiddle : dot (circumcenter a b c) a b a = a.quadrance b / 2 :=
    mul_right_cancel₀ hne (hdot.trans hweights)
  rw [quadrance_eq a b, hmiddle]
  ring

/-- The circumcenter is the one point that is equally far from the three corners. -/
theorem eq_circumcenter_iff (h : doubleArea a b c ≠ 0) {p : Point ℝ} :
    p = circumcenter a b c ↔ p.quadrance a = p.quadrance b ∧ p.quadrance a = p.quadrance c := by
  have hb := circumcenter_quadrance h
  have hc := circumcenter_quadrance (doubleArea_rotate a b c ▸ h)
  rw [circumcenter_rotate] at hc
  constructor
  · rintro rfl
    exact ⟨hb, hb.trans hc⟩
  rintro ⟨hpb, hpc⟩
  -- what is equally far from both ends of a side is seen over the middle of it
  apply ext_of_dot h
  · linear_combination (quadrance_eq a b p - quadrance_eq a b (circumcenter a b c) + hpb - hb) / 2
  · linear_combination
      (quadrance_eq a c p - quadrance_eq a c (circumcenter a b c) + hpc - hb - hc) / 2

/-- The orthocenter lies on the altitude from `a`. -/
theorem dot_orthocenter (h : doubleArea a b c ≠ 0) : dot a (orthocenter a b c) b c = 0 := by
  have hdot := dot_barycenter a b c (orthocenter_weights a b c) (pow_ne_zero 2 h) b c
  have hweights : dot a c b c * dot b a c a * dot b a b c + dot b a c a * dot c b a b * dot c a b c =
      0 * doubleArea a b c ^ 2 := by
    unfold dot
    ring
  have hzero : dot (orthocenter a b c) a b c = 0 :=
    mul_right_cancel₀ (pow_ne_zero 2 h) (hdot.trans hweights)
  unfold dot at hzero ⊢
  linear_combination -hzero

theorem orthocenter_rotate : orthocenter b c a = orthocenter a b c := by
  unfold orthocenter barycenter
  congr 2 <;> ring

end Point

end PlaneFigure
