import PlaneFigure.Proofs.Geometry.Construction
import PlaneFigure.Proofs.Draft.Placed

/-!
Triangles of a given shape in exact arithmetic. The apex goes to the vertex that the shape names, the
ends of the fixed base to the other two; so the shape is a matter of the apex alone.
-/

namespace PlaneFigure

open PlaneFigure.Geometry Exact
open scoped EuclideanGeometry

/-! ### Corners -/

/-- The name at a corner. -/
def Corner.pick (a b c : String) : Corner → String
  | .first => a
  | .second => b
  | .third => c

namespace Placement

variable {a b c v : String} {shape : TriangleShape} {corner : Corner}

theorem apexCorner_eq_ok (hshape : shape.vertex? = some v) (hv : v ∈ [a, b, c]) :
    ∃ corner, apexCorner shape a b c = .ok corner ∧ corner.pick a b c = v := by
  unfold apexCorner
  rw [hshape]
  dsimp only
  split_ifs with ha hb hc
  · exact ⟨.first, rfl, ha.symm⟩
  · exact ⟨.second, rfl, hb.symm⟩
  · exact ⟨.third, rfl, hc.symm⟩
  · simp [ha, hb, hc] at hv

/-- Three points over the fixed base: `v` is the apex, `s` and `t` are the ends of the base. -/
structure OnBase (names : List String) (P : String → Point ℝ) (v s t : String) : Prop where
  names : names.Perm [v, s, t]
  left : P s = ⟨-2, 0⟩
  right : P t = ⟨2, 0⟩

/-- The points are listed in the order of the names, each with its own. -/
theorem cornered_onBase (hnames : [a, b, c].Nodup) (corner : Corner) (top : Point ℝ) :
    ∃ P s t, OnBase [a, b, c] P (corner.pick a b c) s t ∧ P (corner.pick a b c) = top ∧
      cornered corner a b c (Point.exact ⟨-2, 0⟩) (Point.exact ⟨2, 0⟩) top.exact =
        [a, b, c].map fun name => (name, (P name).exact) := by
  obtain ⟨⟨hab, hac⟩, hbc⟩ : (a ≠ b ∧ a ≠ c) ∧ b ≠ c := by simpa using hnames
  -- the apex at `v`, the left end of the base at `s`, the right one elsewhere
  let P : String → String → String → Point ℝ := fun v s name =>
    if name = v then top else if name = s then ⟨-2, 0⟩ else ⟨2, 0⟩
  cases corner with
  | first =>
      refine ⟨P a b, b, c, ⟨.refl _, ?_, ?_⟩, ?_, ?_⟩ <;>
        simp [P, Corner.pick, cornered, hab.symm, hac.symm, hbc.symm]
  | second =>
      refine ⟨P b a, a, c, ⟨.swap .., ?_, ?_⟩, ?_, ?_⟩ <;>
        simp [P, Corner.pick, cornered, hab, hac.symm, hbc.symm]
  | third =>
      refine ⟨P c b, b, a, ⟨?_, ?_, ?_⟩, ?_, ?_⟩
      · exact (List.reverse_perm [c, b, a])
      all_goals simp [P, Corner.pick, cornered, hab, hac, hbc]

/-! ### Apexes -/

/-- The height of an apex that has a variable for it. -/
noncomputable def height (acute : Bool) (z : ℝ) : ℝ :=
  3 * Real.sigmoid z + if acute then 1.1 else 0.4

theorem height_pos (acute : Bool) (z : ℝ) : 0 < height acute z := by
  have hsigmoid := Real.sigmoid_pos z
  cases acute <;> simp only [height] <;> norm_num <;> positivity

theorem calculate_heightFrom (acute : Bool) (z : ℝ) :
    calculate (heightFrom acute (real z)) = real (height acute z) := by
  have hthree : (3.0 : Exact) = real 3 := by norm_num
  have hfloor : (apexFloor acute : Exact) = real (if acute then 1.1 else 0.4) := by
    cases acute <;> rfl
  have hsigmoid : Number.sigmoid (real z) = real (Real.sigmoid z) := by
    rw [Number.sigmoid, literal_one, Real.sigmoid_def, ← one_div]
    exact real_div (by positivity)
  change Number.sigmoid (real z) * 3.0 + apexFloor acute = _
  rw [hsigmoid, hthree, hfloor, real_mul, real_add, mul_comm]
  rfl

/-- The height of an apex on the circle over the base, unless it is beyond the ends of the base. -/
theorem calculate_heightOver {x : ℝ} (hx : 0 ≤ 4 - x * x) :
    calculate (heightOver (real x)) = real √(4 - x * x) := by
  have hfour : (4.0 : Exact) = real 4 := by norm_num
  change Number.sqrt (4.0 - real x * real x) = _
  rw [hfour, real_mul, real_sub, real_sqrt hx]

variable {k : Nat} {ρ : Nat → ℝ}

theorem apexFrom_iso (v : String) (acute : Bool) :
    apexFrom { iso := some v, acute } k (fun i => real (ρ i)) =
      Point.exact ⟨0, height acute (ρ k)⟩ := by
  change (⟨0.0, calculate (heightFrom acute (real (ρ k)))⟩ : Point Exact) = _
  rw [literal_zero, calculate_heightFrom]
  rfl

theorem apexFrom_right (v : String) (hk : 0 ≤ 4 - ρ k * ρ k) :
    apexFrom { right := some v } k (fun i => real (ρ i)) =
      Point.exact ⟨ρ k, √(4 - ρ k * ρ k)⟩ := by
  change (⟨real (ρ k), calculate (heightOver (real (ρ k)))⟩ : Point Exact) = _
  rw [calculate_heightOver hk]
  rfl

theorem apexFrom_equi :
    apexFrom { equi := true } k (fun i => real (ρ i)) = Point.exact ⟨0, 2 * √3⟩ := by
  have hthree : (3.0 : Exact) = real 3 := by norm_num
  change (⟨0.0, 2.0 * Number.sqrt 3.0⟩ : Point Exact) = _
  rw [literal_zero, literal_two, hthree, real_sqrt zero_le_three]
  rfl

theorem apexFrom_acute :
    apexFrom { acute := true } k (fun i => real (ρ i)) =
      Point.exact ⟨ρ k, height true (ρ (k + 1))⟩ := by
  change (⟨real (ρ k), calculate (heightFrom true (real (ρ (k + 1))))⟩ : Point Exact) = _
  rw [calculate_heightFrom]
  rfl

end Placement

/-! ### Triangles -/

/-- A sampler places a triangle over the fixed base with these points, in the order of their names,
and leaves no loss. -/
structure PlacesTriangle (names : List String) (id : String) (args : List String) (k : Nat)
    (ρ : Nat → ℝ) (P : String → Point ℝ) (v s t : String) : Prop where
  places : (Instruction.sample names id args).Places k (fun i => real (ρ i))
    { points := names.map fun name => (name, (P name).exact) }
  onBase : Placement.OnBase names P v s t

namespace Placement

variable {a b c v id : String} {args : List String} {shape : TriangleShape} {k : Nat} {ρ : Nat → ℝ}
  {top : Point ℝ}

theorem placesTriangle {corner : Corner} (hnames : [a, b, c].Nodup)
    (hid : Sampler.ofId id args = .ok (.triangle shape)) (hplain : shape.isPlain = false)
    (hcorner : apexCorner shape a b c = .ok corner)
    (htop : apexFrom shape k (fun i => real (ρ i)) = top.exact) :
    ∃ P s t, PlacesTriangle [a, b, c] id args k ρ P (corner.pick a b c) s t ∧
      P (corner.pick a b c) = top := by
  obtain ⟨P, s, t, hbase, hv, hpoints⟩ := cornered_onBase hnames corner top
  have hplaces : (triangle shape corner a b c).Places k (fun i => real (ρ i)) _ :=
    places_triangle Exact.trigSymmetry
  rw [calculate_gaugeStart, calculate_gaugeEnd, htop, hpoints] at hplaces
  have hsampler : ofSampler (.triangle shape) [a, b, c] = .ok (.triangle shape corner a b c) := by
    simp only [ofSampler, hplain, hcorner]
    rfl
  exact ⟨P, s, t, ⟨hplaces.sample hid hsampler hnames, hbase⟩, hv⟩

/-- The shape singles out the apex. -/
theorem placesTriangle_at (hnames : [a, b, c].Nodup) (hv : v ∈ [a, b, c])
    (hid : Sampler.ofId id args = .ok (.triangle shape)) (hplain : shape.isPlain = false)
    (hvertex : shape.vertex? = some v)
    (htop : apexFrom shape k (fun i => real (ρ i)) = top.exact) :
    ∃ P s t, PlacesTriangle [a, b, c] id args k ρ P v s t ∧ P v = top := by
  obtain ⟨corner, hcorner, rfl⟩ := apexCorner_eq_ok hvertex hv
  exact placesTriangle hnames hid hplain hcorner htop

theorem placesTriangle_iso (hnames : [a, b, c].Nodup) (hv : v ∈ [a, b, c]) (k : Nat) (ρ : Nat → ℝ)
    {acute : Bool} (hid : Sampler.ofId id [v] = .ok (.triangle { iso := some v, acute })) :
    ∃ P s t, PlacesTriangle [a, b, c] id [v] k ρ P v s t ∧ P v = ⟨0, height acute (ρ k)⟩ :=
  placesTriangle_at hnames hv hid rfl rfl (apexFrom_iso v acute)

theorem placesTriangle_right (hnames : [a, b, c].Nodup) (hv : v ∈ [a, b, c]) (k : Nat)
    (ρ : Nat → ℝ) (hk : 0 ≤ 4 - ρ k * ρ k) :
    ∃ P s t, PlacesTriangle [a, b, c] "rightTri" [v] k ρ P v s t ∧
      P v = ⟨ρ k, √(4 - ρ k * ρ k)⟩ := by
  have hid : Sampler.ofId "rightTri" [v] = .ok (.triangle { right := some v }) := rfl
  exact placesTriangle_at hnames hv hid rfl rfl (apexFrom_right v hk)

theorem placesTriangle_equi (hnames : [a, b, c].Nodup) (k : Nat) (ρ : Nat → ℝ)
    (args : List String) :
    ∃ P s t, PlacesTriangle [a, b, c] "equiTri" args k ρ P a s t ∧ P a = ⟨0, 2 * √3⟩ := by
  have hid : Sampler.ofId "equiTri" args = .ok (.triangle { equi := true }) := rfl
  have hcorner : apexCorner { equi := true } a b c = .ok .first := rfl
  exact placesTriangle hnames hid rfl hcorner apexFrom_equi

theorem placesTriangle_acute (hnames : [a, b, c].Nodup) (k : Nat) (ρ : Nat → ℝ)
    (args : List String) :
    ∃ P s t, PlacesTriangle [a, b, c] "acuteTri" args k ρ P a s t ∧
      P a = ⟨ρ k, height true (ρ (k + 1))⟩ := by
  have hid : Sampler.ofId "acuteTri" args = .ok (.triangle { acute := true }) := rfl
  have hcorner : apexCorner { acute := true } a b c = .ok .first := rfl
  exact placesTriangle hnames hid rfl hcorner apexFrom_acute

/-! ### Shapes -/

section Base

variable {names : List String} {P : String → Point ℝ} {s t : String}

theorem OnBase.sides_eq (h : OnBase names P v s t) (hx : (P v).x = 0) :
    dist (P v).toPlane (P s).toPlane = dist (P v).toPlane (P t).toPlane := by
  rw [h.left, h.right, Point.dist_eq_dist_iff, Point.quadrance, Point.quadrance, hx]
  ring

/-- The angle at the apex is right on the circle over the base, and acute outside of it. -/
theorem OnBase.dot_apex (h : OnBase names P v s t) :
    Point.dot (P s) (P v) (P t) (P v) = (P v).x ^ 2 + (P v).y ^ 2 - 4 := by
  rw [h.left, h.right, Point.dot]
  ring

theorem OnBase.dist_base (h : OnBase names P v s t) : dist (P s).toPlane (P t).toPlane = 4 := by
  rw [h.left, h.right, Point.dist_toPlane, Real.sqrt_eq_iff_mul_self_eq_of_pos zero_lt_four,
    Point.quadrance]
  norm_num

end Base

/-- Three points that are different from each other are placed as a triangle over the side from
`(-2, 0)` to `(2, 0)`, each name with its own point and in the order of the names, for all values of
the variables. The apex is the vertex that is named, or the first where none is. There, isosceles
triangles have equal sides, and right triangles a right angle, as long as the apex is no further from
the middle than the ends of the base; equilateral triangles have three equal sides. -/
theorem triangle_shapes (hnames : [a, b, c].Nodup) (k : Nat) (ρ : Nat → ℝ) :
    (∀ v ∈ [a, b, c], ∀ id ∈ ["isoTri", "acuteIsoTri"],
      ∃ P s t, PlacesTriangle [a, b, c] id [v] k ρ P v s t ∧ 0 < (P v).y ∧
        dist (P v).toPlane (P s).toPlane = dist (P v).toPlane (P t).toPlane) ∧
    (|ρ k| ≤ 2 → ∀ v ∈ [a, b, c],
      ∃ P s t, PlacesTriangle [a, b, c] "rightTri" [v] k ρ P v s t ∧ 0 ≤ (P v).y ∧
        (|ρ k| ≠ 2 → 0 < (P v).y) ∧ Point.dot (P s) (P v) (P t) (P v) = 0) ∧
    (∀ args, ∃ P s t, PlacesTriangle [a, b, c] "equiTri" args k ρ P a s t ∧ 0 < (P a).y ∧
      dist (P a).toPlane (P s).toPlane = 4 ∧ dist (P a).toPlane (P t).toPlane = 4 ∧
        dist (P s).toPlane (P t).toPlane = 4) ∧
    ∀ args, ∃ P s t, PlacesTriangle [a, b, c] "acuteTri" args k ρ P a s t ∧ 0 < (P a).y := by
  refine ⟨fun v hv id hid => ?_, fun hk v hv => ?_, fun args => ?_, fun args => ?_⟩
  · obtain ⟨acute, hid⟩ :
        ∃ acute, Sampler.ofId id [v] = .ok (.triangle { iso := some v, acute }) := by
      simp only [List.mem_cons, List.not_mem_nil, or_false] at hid
      obtain rfl | rfl := hid
      · exact ⟨false, rfl⟩
      · exact ⟨true, rfl⟩
    obtain ⟨P, s, t, htriangle, htop⟩ := placesTriangle_iso hnames hv k ρ hid
    exact ⟨P, s, t, htriangle, htop ▸ height_pos acute (ρ k),
      htriangle.onBase.sides_eq (htop ▸ rfl)⟩
  · have hsq : 0 ≤ 4 - ρ k * ρ k := by nlinarith [abs_le.mp hk]
    obtain ⟨P, s, t, htriangle, htop⟩ := placesTriangle_right hnames hv k ρ hsq
    refine ⟨P, s, t, htriangle, htop ▸ Real.sqrt_nonneg _, fun hne => ?_, ?_⟩
    · rw [htop]
      refine Real.sqrt_pos.mpr (hsq.lt_of_ne' fun hzero => hne ?_)
      nlinarith [abs_mul_abs_self (ρ k), abs_nonneg (ρ k)]
    · rw [htriangle.onBase.dot_apex, htop]
      linear_combination Real.mul_self_sqrt hsq
  · obtain ⟨P, s, t, htriangle, htop⟩ := placesTriangle_equi hnames k ρ args
    have hsides := htriangle.onBase.sides_eq (htop ▸ rfl)
    have hside : dist (P a).toPlane (P s).toPlane = 4 := by
      have hsq : √3 * √3 = (3 : ℝ) := Real.mul_self_sqrt zero_le_three
      rw [htop, htriangle.onBase.left, Point.dist_toPlane,
        Real.sqrt_eq_iff_mul_self_eq_of_pos zero_lt_four, Point.quadrance]
      linear_combination -4 * hsq
    have htop_pos : 0 < (P a).y := by
      rw [htop]
      positivity
    exact ⟨P, s, t, htriangle, htop_pos, hside, hsides ▸ hside, htriangle.onBase.dist_base⟩
  · obtain ⟨P, s, t, htriangle, htop⟩ := placesTriangle_acute hnames k ρ args
    exact ⟨P, s, t, htriangle, htop ▸ height_pos true (ρ (k + 1))⟩

/-- A right angle at the second of three points. -/
theorem triangle_shapes_right :
    ["A", "B", "C"].Nodup ∧ ∃ P s t,
      PlacesTriangle ["A", "B", "C"] "rightTri" ["B"] 0 (fun _ => 1) P "B" s t ∧
        0 < (P "B").y ∧ Point.dot (P s) (P "B") (P t) (P "B") = 0 := by
  have hnames : ["A", "B", "C"].Nodup := by decide
  obtain ⟨-, hright, -⟩ := triangle_shapes hnames 0 fun _ => 1
  obtain ⟨P, s, t, htriangle, -, htop, hdot⟩ := hright (by norm_num) "B" (by decide)
  exact ⟨hnames, P, s, t, htriangle, htop (by norm_num), hdot⟩

end Placement

end PlaneFigure
