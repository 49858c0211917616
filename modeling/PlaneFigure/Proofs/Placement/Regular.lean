import PlaneFigure.Proofs.Placement.Course

/-!
Regular polygons: what is placed when no variable deviates from zero. The headings of the sides go
round evenly, so the vertices lie evenly on a circle.
-/

namespace PlaneFigure.Placement

open PlaneFigure.Geometry Exact
open scoped EuclideanGeometry

/-- The course of a regular polygon with `n` vertices. -/
noncomputable def Course.regular (n : Nat) : Course where
  angle _ := (n - 2) * Real.pi / n
  scale _ := 0

/-- Vertex `i` of the regular polygon with `n` vertices on the fixed side: the circle on which they
lie has radius `2 / sin (π / n)`. -/
noncomputable def regularVertex (n i : Nat) : Point ℝ :=
  ⟨2 / Real.sin (Real.pi / n) * Real.sin (2 * i * (Real.pi / n) - Real.pi / n),
    2 / Real.sin (Real.pi / n) *
      (Real.cos (Real.pi / n) - Real.cos (2 * i * (Real.pi / n) - Real.pi / n))⟩

namespace Course

variable {n : Nat}

theorem heading_regular (hn : 0 < n) (i : Nat) : (regular n).heading i = 2 * i * (Real.pi / n) := by
  have hn' : (n : ℝ) ≠ 0 := Nat.cast_ne_zero.mpr hn.ne'
  induction i with
  | zero => simp [heading]
  | succ i ih =>
      rw [heading, ih, regular]
      push_cast
      field_simp
      ring

theorem side_regular (i : Nat) : (regular n).side i = 4 := by
  cases i <;> simp [side, regular]

theorem sin_pi_div_pos (hn : 2 ≤ n) : 0 < Real.sin (Real.pi / n) := by
  have hn' : (1 : ℝ) < n := Nat.one_lt_cast.mpr hn
  exact Real.sin_pos_of_pos_of_lt_pi (div_pos Real.pi_pos (zero_lt_one.trans hn'))
    (div_lt_self Real.pi_pos hn')

/-- A step of the walk is the chord between two neighbouring vertices. -/
theorem vertex_regular (hn : 2 ≤ n) (i : Nat) : (regular n).vertex i = regularVertex n i := by
  have hr : 2 / Real.sin (Real.pi / n) * Real.sin (Real.pi / n) = 2 :=
    div_mul_cancel₀ 2 (sin_pi_div_pos hn).ne'
  induction i with
  | zero =>
      have hstart : 2 * ((0 : Nat) : ℝ) * (Real.pi / n) - Real.pi / n = -(Real.pi / n) := by simp
      rw [vertex, regularVertex, hstart, Real.sin_neg, Real.cos_neg, mul_neg, hr, sub_self, mul_zero]
  | succ i ih =>
      have hnext : 2 * ((i + 1 : Nat) : ℝ) * (Real.pi / n) - Real.pi / n =
          2 * i * (Real.pi / n) + Real.pi / n := by
        push_cast
        ring
      rw [vertex, ih, side_regular, heading_regular (Nat.zero_lt_of_lt hn)]
      simp only [regularVertex, Point.stepped, hnext, Real.sin_add, Real.cos_add, Real.sin_sub,
        Real.cos_sub, Point.mk.injEq]
      constructor
      · linear_combination -(2 * Real.cos (2 * i * (Real.pi / n))) * hr
      · linear_combination -(2 * Real.sin (2 * i * (Real.pi / n))) * hr

theorem regularVertex_add (hn : 0 < n) (i : Nat) :
    regularVertex n (i + n) = regularVertex n i := by
  have hn' : (n : ℝ) ≠ 0 := Nat.cast_ne_zero.mpr hn.ne'
  have hround : 2 * ((i + n : Nat) : ℝ) * (Real.pi / n) - Real.pi / n =
      2 * i * (Real.pi / n) - Real.pi / n + 2 * Real.pi := by
    push_cast
    field_simp
    ring
  simp only [regularVertex, hround, Real.sin_add_two_pi, Real.cos_add_two_pi]

theorem regular_side_pos (i : Nat) : 0 < (regular n).side i := by
  rw [side_regular]
  exact zero_lt_four

theorem regular_angle_bounds (hn : 3 ≤ n) (i : Nat) :
    0 < (regular n).angle i ∧ (regular n).angle i < Real.pi := by
  have hn' : (0 : ℝ) < n - 2 := sub_pos.mpr (Nat.ofNat_lt_cast.mpr hn)
  have hpi := Real.pi_pos
  dsimp only [regular]
  constructor
  · positivity
  · rw [div_lt_iff₀ (by linarith)]
    linarith

theorem dist_regularVertex (hn : 2 ≤ n) (i : Nat) :
    dist (regularVertex n (i + 1)).toPlane (regularVertex n i).toPlane = 4 := by
  rw [← vertex_regular hn, ← vertex_regular hn, dist_vertex regular_side_pos, side_regular]

theorem regularVertex_ne (hn : 2 ≤ n) (i : Nat) : regularVertex n (i + 1) ≠ regularVertex n i := by
  rw [← vertex_regular hn, ← vertex_regular hn]
  exact vertex_ne regular_side_pos i

theorem angle_regularVertex (hn : 3 ≤ n) (i : Nat) :
    ∠ (regularVertex n i).toPlane (regularVertex n (i + 1)).toPlane
      (regularVertex n (i + 2)).toPlane = (n - 2) * Real.pi / n := by
  have hn' : 2 ≤ n := Nat.le_of_succ_le hn
  have h := angle_vertex regular_side_pos (regular_angle_bounds hn) i
  rwa [vertex_regular hn', vertex_regular hn', vertex_regular hn'] at h

/-- At the first vertex, which the walk does not use, there is the same angle as everywhere. -/
theorem calculate_first_angle (hn : 3 ≤ n) :
    calculate (Geometry.angle (regularVertex n (n - 1)).exact (regularVertex n 0).exact
      (regularVertex n 1).exact) = real ((n - 2) * Real.pi / n) := by
  obtain ⟨m, rfl⟩ := Nat.exists_eq_succ_of_ne_zero (Nat.zero_lt_of_lt hn).ne'
  have hm : 2 ≤ m + 1 := Nat.le_of_succ_le hn
  have hround : ∀ i, regularVertex (m + 1) i = regularVertex (m + 1) (m + (i + 1)) := fun i => by
    rw [← regularVertex_add m.succ_pos i, Nat.succ_eq_add_one]
    congr 1
    omega
  have hlast : regularVertex (m + 1) m ≠ regularVertex (m + 1) 0 := by
    rw [hround 0]
    exact (regularVertex_ne hm m).symm
  have hangle := angle_regularVertex hn m
  rw [← hround 0, ← hround 1] at hangle
  exact (calculate_angle_exact hlast (regularVertex_ne hm 0)).trans (congrArg real hangle)

end Course

/-- The losses of a polygon that lacks nothing. -/
theorem losses_regular {names : List String} (hnames : 3 ≤ names.length) :
    (added names (Course.regular names.length).angle (regularVertex names.length)).losses =
      [("polygon-angle-sum", ⟨real 0, 0.1⟩), ("polygon-first-eq-last", ⟨real 0, 0.01⟩),
        ("polygon-first-angle-eq-sampled", ⟨real 0, 0.01⟩)] := by
  have hn : 0 < names.length := Nat.zero_lt_of_lt hnames
  have hn' : (names.length : ℝ) ≠ 0 := Nat.cast_ne_zero.mpr hn.ne'
  have hsum : ∑ _ ∈ Finset.range names.length, (names.length - 2) * Real.pi / names.length -
      (names.length - 2) * Real.pi = 0 := by
    rw [Finset.sum_const, Finset.card_range, nsmul_eq_mul, mul_div_cancel₀ _ hn', sub_self]
  have hclosed := Course.regularVertex_add hn 0
  rw [Nat.zero_add] at hclosed
  dsimp only [added, Course.regular]
  rw [hsum, hclosed, dist_self, Course.calculate_first_angle hnames, real_sub, sub_self]

/-- A polygon whose variables are all zero is regular, with sides as long as the first: the walk comes
back to where it began, all angles are equal, and no loss is left. -/
theorem polygon_regular {names : List String} (hnames : 3 ≤ names.length) (k : Nat) (ρ : Nat → ℝ)
    (hρ : ∀ i < 2 * names.length, ρ (k + i) = 0) :
    let n := names.length
    let P := regularVertex n
    (polygon names).Places k (fun i => real (ρ i))
      { points := names.zip ((List.range n).map fun i => (P i).exact)
        losses := [("polygon-angle-sum", ⟨real 0, 0.1⟩), ("polygon-first-eq-last", ⟨real 0, 0.01⟩),
          ("polygon-first-angle-eq-sampled", ⟨real 0, 0.01⟩)] } ∧
      calculate (walk (P 0).exact (P 1).exact
        ((List.range' 1 (n - 1)).map fun _ => ⟨real ((n - 2) * Real.pi / n), real 0⟩)) =
          ⟨(List.range (n + 1)).map fun i => (P i).exact, (P (n - 1)).exact, (P n).exact⟩ ∧
      P 0 = ⟨-2, 0⟩ ∧ P 1 = ⟨2, 0⟩ ∧
      ∀ i, P (i + n) = P i ∧ dist (P (i + 1)).toPlane (P i).toPlane = 4 ∧
        ∠ (P i).toPlane (P (i + 1)).toPlane (P (i + 2)).toPlane = (n - 2) * Real.pi / n ∧
        0 < Point.cross (P (i + 1)) (P i) (P (i + 2)) (P (i + 1)) := by
  intro n P
  have hn : 0 < n := Nat.zero_lt_of_lt hnames
  have hn' : 2 ≤ n := Nat.le_of_succ_le hnames
  have hP : (Course.regular n).vertex = P := funext (Course.vertex_regular hn')
  have hsampled : ∀ i < n, (Course.sampled n k ρ).angle i = (Course.regular n).angle i ∧
      (Course.sampled n k ρ).scale i = (Course.regular n).scale i := by
    intro i hi
    dsimp only [Course.sampled, Course.regular]
    rw [hρ i (by omega), Nat.add_assoc, hρ (n + i) (by omega), mul_zero, Real.tanh_zero, mul_zero,
      add_zero, mul_zero]
    exact ⟨rfl, rfl⟩
  have hplaces := places_course Course.regular_side_pos (List.length_pos_iff.mp hn) hsampled
  have hwalk := Course.calculate_walk_round (p := .regular n) Course.regular_side_pos hn
  have hcross := Course.cross_vertex_pos Course.regular_side_pos (Course.regular_angle_bounds hnames)
  rw [hP] at hplaces hwalk hcross
  refine ⟨?_, hwalk, hP ▸ rfl, hP ▸ Course.vertex_one _, fun i => ?_⟩
  · rw [← losses_regular hnames]
    exact hplaces
  · exact ⟨Course.regularVertex_add hn i, Course.dist_regularVertex hn' i,
      Course.angle_regularVertex hnames i, hcross i⟩

/-- The square. -/
theorem polygon_regular_square :
    let names := ["A", "B", "C", "D"]
    let P := regularVertex 4
    (polygon names).Places 0 (fun _ => real 0)
      { points := names.zip ((List.range 4).map fun i => (P i).exact)
        losses := [("polygon-angle-sum", ⟨real 0, 0.1⟩), ("polygon-first-eq-last", ⟨real 0, 0.01⟩),
          ("polygon-first-angle-eq-sampled", ⟨real 0, 0.01⟩)] } ∧
      P 4 = P 0 ∧ dist (P 4).toPlane (P 3).toPlane = 4 ∧
      ∠ (P 3).toPlane (P 4).toPlane (P 5).toPlane = Real.pi / 2 := by
  intro names P
  have hright : (((4 : ℕ) : ℝ) - 2) * Real.pi / (4 : ℕ) = Real.pi / 2 := by
    push_cast
    ring
  obtain ⟨hplaces, -, -, -, hP⟩ :=
    @polygon_regular names (by decide) 0 (fun _ => 0) (fun _ _ => rfl)
  obtain ⟨hclosed, -⟩ := hP 0
  obtain ⟨-, hside, hangle, -⟩ := hP 3
  rw [← hright]
  exact ⟨hplaces, hclosed, hside, hangle⟩

end PlaneFigure.Placement
