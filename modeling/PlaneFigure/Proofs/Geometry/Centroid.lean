import PlaneFigure.Proofs.Geometry.Center

/-!
The centroid. It is computed as the barycenter with equal weights, by way of trilinear coordinates, for
which the weights are divided by the sides. So it is the mean of three points that are apart, be they on
a line or not; but it is undefined as soon as two of them coincide, although the mean is not.
-/

namespace PlaneFigure.Exact

open PlaneFigure.Geometry

variable {a b c : Point ℝ}

/-- If a coordinate of a barycenter is defined, no side is zero. -/
theorem ne_of_isReal_barycentric {x y z : Exact}
    (h : (calculate (barycentric a.exact b.exact c.exact x y z)).x.IsReal ∨
      (calculate (barycentric a.exact b.exact c.exact x y z)).y.IsReal) :
    a ≠ b ∧ b ≠ c ∧ c ≠ a := by
  have hside : ∀ {p q : Point ℝ}, (∃ l ≠ 0, real √(p.quadrance q) = real l) → p ≠ q := by
    rintro p q ⟨l, hl, hlength⟩ rfl
    rw [Point.quadrance_eq_zero.mpr rfl, Real.sqrt_zero, real.injEq] at hlength
    exact hl hlength.symm
  rw [calculate_barycentric, calculate_trilinear, calculate_sides_exact] at h
  simp only [isReal_div, isReal_add, isReal_mul] at h
  -- both coordinates contain the quotients of the weights by the sides
  obtain ⟨⟨⟨⟨⟨-, -, ha⟩, -⟩, ⟨-, -, hb⟩, -⟩, ⟨-, -, hc⟩, -⟩, -⟩ |
    ⟨⟨⟨⟨⟨-, -, ha⟩, -⟩, ⟨-, -, hb⟩, -⟩, ⟨-, -, hc⟩, -⟩, -⟩ := h <;>
  exact ⟨hside hc, hside ha, hside hb⟩

theorem calculate_centroid (a b c : Point Exact) :
    calculate (centroid a b c) = calculate (barycentric a b c (real 1) (real 1) (real 1)) := by
  rw [← literal_one]
  rfl

/-- The centroid of three points is their mean if they are apart, also on a line. If two of them
coincide, both coordinates are undefined, for a zero side is divided by. -/
theorem centroid_eq_mean (a b c : Point ℝ) :
    (a ≠ b → b ≠ c → c ≠ a → calculate (centroid a.exact b.exact c.exact) =
      Point.exact ⟨(a.x + b.x + c.x) / 3, (a.y + b.y + c.y) / 3⟩) ∧
    (a = b ∨ b = c ∨ c = a →
      calculate (centroid a.exact b.exact c.exact) = ⟨undefined, undefined⟩) := by
  rw [calculate_centroid]
  constructor
  · intro hab hbc hca
    have hmean : Point.barycenter a b c 1 1 1 =
        ⟨(a.x + b.x + c.x) / 3, (a.y + b.y + c.y) / 3⟩ := by
      norm_num [Point.barycenter]
    rw [calculate_barycentric_of_ne hab hbc hca rfl (by norm_num), hmean]
  · intro h
    have hnone : ¬ (a ≠ b ∧ b ≠ c ∧ c ≠ a) := by tauto
    have hundefined : ∀ {u : Exact}, ¬ u.IsReal → u = undefined := by
      intro u hu
      cases u with
      | undefined => rfl
      | real r => exact (hu isReal_real).elim
    obtain ⟨hx, hy⟩ := not_or.mp (mt (ne_of_isReal_barycentric (x := real 1) (y := real 1)
      (z := real 1)) hnone)
    exact congrArg₂ Point.mk (hundefined hx) (hundefined hy)

/-- Three points on a line. -/
theorem centroid_eq_mean_collinear :
    let a : Point ℝ := ⟨0, 0⟩
    let b : Point ℝ := ⟨1, 2⟩
    let c : Point ℝ := ⟨5, 10⟩
    (a ≠ b ∧ b ≠ c ∧ c ≠ a) ∧
      calculate (centroid a.exact b.exact c.exact) = Point.exact ⟨2, 4⟩ := by
  intro a b c
  have hne : a ≠ b ∧ b ≠ c ∧ c ≠ a := by norm_num [a, b, c]
  refine ⟨hne, ((centroid_eq_mean a b c).1 hne.1 hne.2.1 hne.2.2).trans ?_⟩
  norm_num [a, b, c]

/-- A point that is counted twice has a mean with another, but no centroid. -/
theorem centroid_of_coincident :
    let a : Point ℝ := ⟨0, 0⟩
    let c : Point ℝ := ⟨3, 6⟩
    calculate (centroid a.exact a.exact c.exact) ≠
      Point.exact ⟨(a.x + a.x + c.x) / 3, (a.y + a.y + c.y) / 3⟩ := by
  intro a c hmean
  have hreal := congrArg Point.x hmean
  have hcoordinate : (calculate (centroid a.exact a.exact c.exact)).x.IsReal := ⟨_, hreal⟩
  rw [calculate_centroid] at hcoordinate
  exact (ne_of_isReal_barycentric (.inl hcoordinate)).1 rfl

end PlaneFigure.Exact
