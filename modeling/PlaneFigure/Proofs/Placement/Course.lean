import PlaneFigure.Proofs.Geometry.Construction
import PlaneFigure.Proofs.Placement.Values

/-!
The walk of a polygon in exact arithmetic. Every side has a length and a heading, and every vertex is
one step from the vertex before. So the lengths of the sides and the angles between them can be read
off the steps.
-/

namespace PlaneFigure

open PlaneFigure.Geometry Exact
open scoped EuclideanGeometry

/-! ### Steps -/

namespace Point

/-- The point at distance `r` from `a` in direction `φ`. -/
noncomputable def stepped (a : Point ℝ) (r φ : ℝ) : Point ℝ :=
  ⟨a.x + r * Real.cos φ, a.y + r * Real.sin φ⟩

variable {a b : Point ℝ} {r s θ φ ψ : ℝ}

theorem quadrance_stepped : (a.stepped r φ).quadrance a = r ^ 2 := by
  simp only [quadrance, stepped]
  linear_combination r ^ 2 * Real.sin_sq_add_cos_sq φ

theorem side_stepped (hr : 0 ≤ r) : √((a.stepped r φ).quadrance a) = r := by
  rw [quadrance_stepped, Real.sqrt_sq hr]

theorem dist_stepped (hr : 0 ≤ r) : dist (a.stepped r φ).toPlane a.toPlane = r := by
  rw [dist_toPlane, side_stepped hr]

theorem stepped_ne (hr : 0 < r) : a.stepped r φ ≠ a := by
  rw [Ne, ← quadrance_eq_zero, quadrance_stepped]
  exact pow_ne_zero 2 hr.ne'

theorem dot_stepped : dot a (a.stepped r φ) ((a.stepped r φ).stepped s ψ) (a.stepped r φ) =
    -(r * s * Real.cos (ψ - φ)) := by
  simp only [dot, stepped, Real.cos_sub]
  ring

theorem cross_stepped : cross (a.stepped r φ) a ((a.stepped r φ).stepped s ψ) (a.stepped r φ) =
    r * s * Real.sin (ψ - φ) := by
  simp only [cross, stepped, Real.sin_sub]
  ring

/-- A step, stretched to another length. -/
theorem stretch_stepped (hr : r ≠ 0) :
    mk (a.x + ((a.stepped r φ).x - a.x) * (s / r)) (a.y + ((a.stepped r φ).y - a.y) * (s / r)) =
      a.stepped s φ := by
  simp only [stepped, add_sub_cancel_left, mk.injEq]
  constructor <;> field_simp

/-- The interior angle is what a turn leaves of a straight one. -/
theorem angle_stepped (hb : b = a.stepped r φ) (hr : 0 < r) (hs : 0 < s) (hθ : 0 ≤ θ)
    (hθ' : θ ≤ Real.pi) :
    ∠ a.toPlane b.toPlane (b.stepped s (φ + (Real.pi - θ))).toPlane = θ := by
  subst hb
  have hcos : Real.cos (φ + (Real.pi - θ) - φ) = -Real.cos θ := by
    rw [add_sub_cancel_left, Real.cos_pi_sub]
  rw [angle_eq_arccos, dot_stepped, side_stepped hs.le, quadrance_comm, side_stepped hr.le, hcos,
    mul_neg, neg_neg, mul_div_cancel_left₀ _ (mul_pos hr hs).ne', Real.arccos_cos hθ hθ']

/-- A turn by less than a straight angle is to the left. -/
theorem cross_stepped_pos (hb : b = a.stepped r φ) (hr : 0 < r) (hs : 0 < s) (hθ : 0 < θ)
    (hθ' : θ < Real.pi) : 0 < cross b a (b.stepped s (φ + (Real.pi - θ))) b := by
  subst hb
  rw [cross_stepped, add_sub_cancel_left, Real.sin_pi_sub]
  exact mul_pos (mul_pos hr hs) (Real.sin_pos_of_pos_of_lt_pi hθ hθ')

theorem turned_stepped (hb : b = a.stepped r φ) :
    turned (-θ) b a = b.stepped r (φ + (Real.pi - θ)) := by
  have hheading : φ + (Real.pi - θ) = φ - θ + Real.pi := by ring
  subst hb
  simp only [turned, stepped, hheading, Real.cos_add_pi, Real.sin_add_pi, Real.cos_sub, Real.sin_sub,
    Real.cos_neg, Real.sin_neg, mk.injEq]
  constructor <;> ring

end Point

namespace Placement

section Turned

variable {S R μ : Type} [Number R] [Scalar S R μ]

/-- The end of the side from `b` to `a`, turned clockwise by `θ`. -/
def turnedEnd (a b : Point S) (θ : S) : StateM μ (Point S) := do
  b.add (← rotate (← Scalar.neg θ) (← a.sub b))

/-- The next vertex is in the direction of the turned side; the divisor is the length of that. -/
theorem nextVertex_eq_turned (a b : Point S) (t : Turn S) :
    nextVertex a b t = (do
      let x ← turnedEnd a b t.angle
      let length ← Scalar.mulConst (← Scalar.addConst t.scale 1.0) gaugeSide
      let factor ← Scalar.div length (← Geometry.dist x b)
      let p ← b.add (← (← x.sub b).smul factor)
      p.simplify .trig : StateM μ (Point S)) := by
  simp only [nextVertex, turnedEnd, bind_assoc]

end Turned

/-! ### One vertex after another -/

variable {a b : Point ℝ} {r σ θ φ : ℝ}

theorem calculate_turnedEnd (hb : b = a.stepped r φ) :
    calculate (turnedEnd a.exact b.exact (real θ)) = (b.stepped r (φ + (Real.pi - θ))).exact := by
  rw [← Point.turned_stepped hb]
  rfl

/-- The divisor is the length of the side before. -/
theorem calculate_divisor (hb : b = a.stepped r φ) (hr : 0 ≤ r) :
    calculate (turnedEnd a.exact b.exact (real θ) >>= fun x => Geometry.dist x b.exact) =
      real r := by
  rw [calculate_bind, calculate_turnedEnd hb, calculate_dist_exact, Point.side_stepped hr]

theorem calculate_nextVertex (hb : b = a.stepped r φ) (hr : 0 < r) :
    calculate (nextVertex a.exact b.exact ⟨real θ, real σ⟩) =
      (b.stepped (4 * (1 + σ)) (φ + (Real.pi - θ))).exact := by
  have hclosed : calculate (nextVertex a.exact b.exact ⟨real θ, real σ⟩) =
      let x := calculate (turnedEnd a.exact b.exact (real θ))
      let k := (real σ + 1.0) * gaugeSide / calculate (Geometry.dist x b.exact)
      ⟨b.exact.x + (x.x - b.exact.x) * k, b.exact.y + (x.y - b.exact.y) * k⟩ := by
    rw [nextVertex_eq_turned, calculate_bind]
    rfl
  have hlength : (real σ + 1.0) * gaugeSide = real (4 * (1 + σ)) := by
    have hfour : (gaugeSide : Exact) = real 4 := by norm_num [gaugeSide]
    rw [literal_one, hfour, real_add, real_mul, mul_comm, add_comm]
  rw [hclosed, calculate_turnedEnd hb]
  dsimp only
  rw [hlength, calculate_dist_exact, Point.side_stepped hr.le, real_div hr.ne']
  exact congrArg Point.exact (Point.stretch_stepped hr.ne')

/-! ### Walks -/

/-- The interior angles of a walk, and the deviations of the lengths of the sides that follow. -/
structure Course where
  angle : Nat → ℝ
  scale : Nat → ℝ

namespace Course

variable (p : Course)

/-- The length of the side after vertex `i`. -/
def side : Nat → ℝ
  | 0 => 4
  | i + 1 => 4 * (1 + p.scale (i + 1))

/-- The direction of the side after vertex `i`. -/
noncomputable def heading : Nat → ℝ
  | 0 => 0
  | i + 1 => heading i + (Real.pi - p.angle (i + 1))

noncomputable def vertex : Nat → Point ℝ
  | 0 => ⟨-2, 0⟩
  | i + 1 => (vertex i).stepped (p.side i) (p.heading i)

def turn (i : Nat) : Turn Exact := ⟨real (p.angle i), real (p.scale i)⟩

theorem vertex_one : p.vertex 1 = ⟨2, 0⟩ := by
  norm_num [vertex, side, heading, Point.stepped]

variable {p} (hside : ∀ i, 0 < p.side i)

include hside in
/-- The walk passes the vertices from any side on. -/
theorem calculate_walk (i m : Nat) :
    calculate (walk (p.vertex i).exact (p.vertex (i + 1)).exact
      ((List.range' (i + 1) m).map p.turn)) =
        ⟨(List.range' i (m + 2)).map fun j => (p.vertex j).exact, (p.vertex (i + m)).exact,
          (p.vertex (i + m + 1)).exact⟩ := by
  induction m generalizing i with
  | zero => rfl
  | succ m ih =>
      have hnext : calculate (nextVertex (p.vertex i).exact (p.vertex (i + 1)).exact
          (p.turn (i + 1))) = (p.vertex (i + 2)).exact :=
        calculate_nextVertex rfl (hside i)
      rw [List.range'_succ, List.map_cons, walk, calculate_bind, hnext, calculate_bind, ih,
        Nat.add_right_comm i 1 m, List.range'_succ (s := i)]
      rfl

include hside in
theorem calculate_walk_round {n : Nat} (hn : 0 < n) :
    calculate (walk (p.vertex 0).exact (p.vertex 1).exact ((List.range' 1 (n - 1)).map p.turn)) =
      ⟨(List.range (n + 1)).map fun i => (p.vertex i).exact, (p.vertex (n - 1)).exact,
        (p.vertex n).exact⟩ := by
  obtain ⟨m, rfl⟩ := Nat.exists_eq_succ_of_ne_zero hn.ne'
  have h := calculate_walk hside 0 m
  rwa [Nat.zero_add, Nat.zero_add, ← List.range_eq_range'] at h

theorem calculate_sum_angles {n : Nat} (hn : 0 < n) :
    calculate (Scalar.sum
      (real (p.angle 0) :: (List.range' 1 (n - 1)).map fun i => real (p.angle i))) =
        real (∑ i ∈ Finset.range n, p.angle i) := by
  have hangles : real (p.angle 0) :: (List.range' 1 (n - 1)).map (fun i => real (p.angle i)) =
      ((List.range n).map p.angle).map real := by
    obtain ⟨m, rfl⟩ := Nat.exists_eq_succ_of_ne_zero hn.ne'
    rw [List.range_eq_range', List.range'_succ, List.map_map]
    rfl
  rw [hangles, calculate_sum_exact]
  rfl

/-! ### Lengths and angles -/

include hside

theorem vertex_ne (i : Nat) : p.vertex (i + 1) ≠ p.vertex i := Point.stepped_ne (hside i)

theorem dist_vertex (i : Nat) : dist (p.vertex (i + 1)).toPlane (p.vertex i).toPlane = p.side i :=
  Point.dist_stepped (hside i).le

variable (hangle : ∀ i, 0 < p.angle i ∧ p.angle i < Real.pi)

include hangle

theorem angle_vertex (i : Nat) :
    ∠ (p.vertex i).toPlane (p.vertex (i + 1)).toPlane (p.vertex (i + 2)).toPlane = p.angle (i + 1) :=
  Point.angle_stepped rfl (hside i) (hside (i + 1)) (hangle (i + 1)).1.le (hangle (i + 1)).2.le

theorem cross_vertex_pos (i : Nat) :
    0 < Point.cross (p.vertex (i + 1)) (p.vertex i) (p.vertex (i + 2)) (p.vertex (i + 1)) :=
  Point.cross_stepped_pos rfl (hside i) (hside (i + 1)) (hangle (i + 1)).1 (hangle (i + 1)).2

end Course

/-! ### Polygons -/

/-- What a polygon adds that has these angles and vertices; its walk ends at vertex `n`. -/
noncomputable def added (names : List String) (θ : Nat → ℝ) (P : Nat → Point ℝ) :
    Addition Exact Exact :=
  let n := names.length
  { points := names.zip ((List.range n).map fun i => (P i).exact)
    losses := [
      ("polygon-angle-sum", ⟨real (∑ i ∈ Finset.range n, θ i - (n - 2) * Real.pi), 0.1⟩),
      ("polygon-first-eq-last", ⟨real (dist (P 0).toPlane (P n).toPlane), 0.01⟩),
      ("polygon-first-angle-eq-sampled",
        ⟨real (θ 0) - calculate (Geometry.angle (P (n - 1)).exact (P 0).exact (P 1).exact), 0.01⟩)] }

/-- The sampled scalars of a course. -/
def Course.shape (p : Course) (n : Nat) : PolygonShape Exact where
  firstAngle := real (p.angle 0)
  angles := (List.range' 1 (n - 1)).map fun i => real (p.angle i)
  scales := (List.range' 1 (n - 1)).map fun i => real (p.scale i)

theorem Course.shape_turns (p : Course) (n : Nat) :
    (p.shape n).turns = (List.range' 1 (n - 1)).map p.turn := by
  rw [PolygonShape.turns, shape, List.zipWith_map, List.zipWith_self]
  rfl

theorem calculate_closingLosses {R : Type} [Number R] (n : Nat) (first : R) (others : List R)
    (a b : Point R) (w : Walk R) :
    calculate (closingLosses n first others a b w) =
      [("polygon-angle-sum",
          ⟨calculate (Scalar.sum (first :: others)) - (Number.ofNat n - 2.0) * Number.pi, 0.1⟩),
        ("polygon-first-eq-last", ⟨calculate (Geometry.dist a w.lastEnd), 0.01⟩),
        ("polygon-first-angle-eq-sampled",
          ⟨first - calculate (Geometry.angle w.lastStart a b), 0.01⟩)] :=
  rfl

theorem zip_range_succ {α : Type} (names : List String) (f : Nat → α) :
    names.zip ((List.range (names.length + 1)).map f) =
      names.zip ((List.range names.length).map f) := by
  have h : (names ++ []).zip ((List.range names.length).map f ++ [f names.length]) =
      names.zip ((List.range names.length).map f) ++ [] := List.zip_append (by simp)
  rw [List.append_nil, List.append_nil] at h
  rw [List.range_succ, List.map_append]
  exact h

theorem calculate_polygonOf {p : Course} (hside : ∀ i, 0 < p.side i) {names : List String}
    (hnames : names ≠ []) :
    calculate (polygonOf names (p.shape names.length)) = added names p.angle p.vertex := by
  have hn : 0 < names.length := List.length_pos_iff.mpr hnames
  have hclosed : calculate (polygonOf names (p.shape names.length)) =
      let w := calculate (walk (p.vertex 0).exact (p.vertex 1).exact (p.shape names.length).turns)
      { points := names.zip w.vertices
        losses := calculate (closingLosses names.length (p.shape names.length).firstAngle
          (p.shape names.length).angles (p.vertex 0).exact (p.vertex 1).exact w) } := by
    rw [polygonOf, calculate_bind, calculate_bind, calculate_bind, calculate_gaugeStart,
      calculate_gaugeEnd, p.vertex_one]
    rfl
  rw [hclosed, Course.shape_turns, Course.calculate_walk_round hside hn]
  dsimp only [Course.shape]
  rw [calculate_closingLosses, Course.calculate_sum_angles hn, calculate_dist_exact,
    zip_range_succ, literal_two, ← Point.dist_toPlane]
  rfl

/-! ### Sampled courses -/

/-- The course of a polygon with `n` vertices whose variables follow `k` others. -/
noncomputable def Course.sampled (n k : Nat) (ρ : Nat → ℝ) : Course where
  angle i := (n - 2) * Real.pi / n + Real.pi / n * Real.tanh (0.2 * ρ (k + i))
  scale i := 0.5 * Real.tanh (0.2 * ρ (k + n + i))

theorem calculate_angleFrom {n : Nat} (hn : 0 < n) (z : ℝ) :
    calculate (angleFrom n (real z)) =
      real ((n - 2) * Real.pi / n + Real.pi / n * Real.tanh (0.2 * z)) := by
  have hn' : (n : ℝ) ≠ 0 := Nat.cast_ne_zero.mpr hn.ne'
  have hinterior : (interior n : Exact) = real ((n - 2) * Real.pi / n) := by
    rw [interior, literal_two]
    exact real_div hn'
  have hspread : (spread n : Exact) = real (Real.pi / n) := real_div hn'
  change Number.tanh (real z * 0.2) * spread n + interior n = _
  rw [hspread, hinterior, add_comm, mul_comm 0.2, mul_comm (Real.pi / n)]
  rfl

theorem calculate_scaleFrom (z : ℝ) :
    calculate (scaleFrom (real z)) = real (0.5 * Real.tanh (0.2 * z)) := by
  rw [mul_comm 0.2, mul_comm 0.5]
  rfl

theorem shapeFrom_exact {n : Nat} (hn : 0 < n) (k : Nat) (ρ : Nat → ℝ) :
    shapeFrom n k (fun i => real (ρ i)) = (Course.sampled n k ρ).shape n := by
  simp only [shapeFrom, calculate_angleFrom hn, calculate_scaleFrom]
  rfl

/-- Only the scalars at the vertices of the polygon are sampled. -/
theorem Course.shape_congr {p q : Course} {n : Nat}
    (h : ∀ i < n, p.angle i = q.angle i ∧ p.scale i = q.scale i) (hn : 0 < n) :
    p.shape n = q.shape n := by
  have hmem : ∀ i ∈ List.range' 1 (n - 1), i < n := fun i hi => by
    have := List.mem_range'_1.mp hi
    omega
  simp only [shape, (h 0 hn).1]
  congr 1
  · exact List.map_congr_left fun i hi => congrArg real (h i (hmem i hi)).1
  · exact List.map_congr_left fun i hi => congrArg real (h i (hmem i hi)).2

theorem places_course {p : Course} {names : List String} {k : Nat} {ρ : Nat → ℝ}
    (hside : ∀ i, 0 < p.side i) (hnames : names ≠ [])
    (hp : ∀ i < names.length, (Course.sampled names.length k ρ).angle i = p.angle i ∧
      (Course.sampled names.length k ρ).scale i = p.scale i) :
    (polygon names).Places k (fun i => real (ρ i)) (added names p.angle p.vertex) := by
  have hn : 0 < names.length := List.length_pos_iff.mpr hnames
  have hplaces := places_polygon (k := k) (ρ := fun i => real (ρ i)) Exact.trigSymmetry hnames
  rwa [shapeFrom_exact hn, Course.shape_congr hp hn, calculate_polygonOf hside hnames] at hplaces

namespace Course

variable {n k : Nat} {ρ : Nat → ℝ}

theorem side_sampled_mem (i : Nat) : (sampled n k ρ).side i ∈ Set.Ioo 2 6 := by
  cases i with
  | zero => norm_num [side]
  | succ i =>
      have hlow := Real.neg_one_lt_tanh (0.2 * ρ (k + n + (i + 1)))
      have hhigh := Real.tanh_lt_one (0.2 * ρ (k + n + (i + 1)))
      dsimp only [side, sampled]
      constructor <;> linarith

theorem angle_sampled_mem (hn : 0 < n) (i : Nat) :
    (sampled n k ρ).angle i ∈ Set.Ioo ((n - 3) * Real.pi / n) ((n - 1) * Real.pi / n) := by
  have hstep : 0 < Real.pi / n := div_pos Real.pi_pos (Nat.cast_pos.mpr hn)
  have hlow := mul_lt_mul_of_pos_left (Real.neg_one_lt_tanh (0.2 * ρ (k + i))) hstep
  have hhigh := mul_lt_mul_of_pos_left (Real.tanh_lt_one (0.2 * ρ (k + i))) hstep
  dsimp only [sampled]
  simp only [mul_div_assoc]
  constructor <;> linarith

theorem angle_sampled_bounds (hn : 3 ≤ n) (i : Nat) :
    0 < (sampled n k ρ).angle i ∧ (sampled n k ρ).angle i < Real.pi := by
  have hn' : (0 : ℝ) ≤ n - 3 := sub_nonneg.mpr (Nat.ofNat_le_cast.mpr hn)
  have hpi := Real.pi_pos
  obtain ⟨hlow, hhigh⟩ := angle_sampled_mem (k := k) (ρ := ρ) (Nat.zero_lt_of_lt hn) i
  constructor
  · exact lt_of_le_of_lt (by positivity) hlow
  · refine hhigh.trans ?_
    rw [div_lt_iff₀ (by linarith)]
    linarith

end Course

/-- A polygon with at least three vertices has the sampled sides and angles, for all values of its
variables. Its first side goes from `(-2, 0)` to `(2, 0)`. Every other side, up to the one that ends
where the walk does, has the sampled length, between two and six; the angle with the side before it
is the sampled one, and it turns to the left. No divisor vanishes on the way. -/
theorem polygon_walk {names : List String} (hnames : 3 ≤ names.length) (k : Nat) (ρ : Nat → ℝ) :
    let n := names.length
    let θ : Nat → ℝ := fun i => (n - 2) * Real.pi / n + Real.pi / n * Real.tanh (0.2 * ρ (k + i))
    let σ : Nat → ℝ := fun i => 0.5 * Real.tanh (0.2 * ρ (k + n + i))
    ∃ P : Nat → Point ℝ,
      (polygon names).Places k (fun i => real (ρ i)) (added names θ P) ∧
      calculate (walk (P 0).exact (P 1).exact
        ((List.range' 1 (n - 1)).map fun i => ⟨real (θ i), real (σ i)⟩)) =
          ⟨(List.range (n + 1)).map fun i => (P i).exact, (P (n - 1)).exact, (P n).exact⟩ ∧
      P 0 = ⟨-2, 0⟩ ∧ P 1 = ⟨2, 0⟩ ∧
      ∀ i, i + 2 ≤ n →
        dist (P (i + 2)).toPlane (P (i + 1)).toPlane = 4 * (1 + σ (i + 1)) ∧
        4 * (1 + σ (i + 1)) ∈ Set.Ioo 2 6 ∧
        ∠ (P i).toPlane (P (i + 1)).toPlane (P (i + 2)).toPlane = θ (i + 1) ∧
        θ (i + 1) ∈ Set.Ioo ((n - 3) * Real.pi / n) ((n - 1) * Real.pi / n) ∧
        0 < Point.cross (P (i + 1)) (P i) (P (i + 2)) (P (i + 1)) ∧
        ∃ r, 0 < r ∧ calculate (turnedEnd (P i).exact (P (i + 1)).exact (real (θ (i + 1))) >>=
          fun x => Geometry.dist x (P (i + 1)).exact) = real r := by
  intro n θ σ
  let p := Course.sampled n k ρ
  have hn : 0 < n := Nat.zero_lt_of_lt hnames
  have hside : ∀ i, 0 < p.side i := fun i => zero_lt_two.trans (Course.side_sampled_mem i).1
  have hangle : ∀ i, 0 < p.angle i ∧ p.angle i < Real.pi := Course.angle_sampled_bounds hnames
  have hplaces := places_course hside (List.length_pos_iff.mp hn) (fun i _ => ⟨rfl, rfl⟩)
  refine ⟨p.vertex, hplaces, Course.calculate_walk_round hside hn, rfl, p.vertex_one, fun i _ => ?_⟩
  exact ⟨Course.dist_vertex hside (i + 1), Course.side_sampled_mem (i + 1),
    Course.angle_vertex hside hangle i, Course.angle_sampled_mem hn (i + 1),
    Course.cross_vertex_pos hside hangle i, p.side i, hside i, calculate_divisor rfl (hside i).le⟩

/-- A triangle all of whose variables are five: its second and third sides are longer than the first,
and the angle between them is larger than that of an equilateral triangle. -/
theorem polygon_walk_triangle :
    let names := ["A", "B", "C"]
    let θ := Real.pi / 3 + Real.pi / 3 * Real.tanh 1
    let s := 4 * (1 + 0.5 * Real.tanh 1)
    ∃ P : Nat → Point ℝ,
      (polygon names).Places 0 (fun _ => real 5) (added names (fun _ => θ) P) ∧
      dist (P 2).toPlane (P 1).toPlane = s ∧ dist (P 3).toPlane (P 2).toPlane = s ∧
      ∠ (P 1).toPlane (P 2).toPlane (P 3).toPlane = θ := by
  intro names θ s
  have hθ : (((3 : ℕ) : ℝ) - 2) * Real.pi / (3 : ℕ) +
      Real.pi / (3 : ℕ) * Real.tanh (0.2 * 5) = θ := by
    norm_num [θ]
  have hs : 4 * (1 + 0.5 * Real.tanh (0.2 * 5)) = s := by norm_num [s]
  obtain ⟨P, hplaces, -, -, -, hP⟩ := @polygon_walk names (by decide) 0 fun _ => 5
  obtain ⟨hfirst, -⟩ := hP 0 (by decide)
  obtain ⟨hsecond, -, hangle, -⟩ := hP 1 (by decide)
  rw [← hs, ← hθ]
  exact ⟨P, hplaces, hfirst, hsecond, hangle⟩

end Placement

end PlaneFigure
