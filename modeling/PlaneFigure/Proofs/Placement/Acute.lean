import PlaneFigure.Proofs.Placement.Triangle

/-!
Where the triangles are acute of which that is asked. Only the height of the apex is meant to bring it
about, and it does not do so for all values of the variables.
-/

namespace PlaneFigure

open scoped EuclideanGeometry

namespace Point

variable {a b c : Point ℝ}

theorem angle_lt_right_iff (ha : a ≠ b) (hc : c ≠ b) :
    ∠ a.toPlane b.toPlane c.toPlane < Real.pi / 2 ↔ 0 < dot a b c b := by
  rw [angle_eq_arccos, Real.arccos_lt_pi_div_two,
    div_pos_iff_of_pos_right (mul_pos (side_pos ha) (side_pos hc))]

theorem angle_le_right_iff (ha : a ≠ b) (hc : c ≠ b) :
    ∠ a.toPlane b.toPlane c.toPlane ≤ Real.pi / 2 ↔ 0 ≤ dot a b c b := by
  rw [angle_eq_arccos, Real.arccos_le_pi_div_two,
    le_div_iff₀ (mul_pos (side_pos ha) (side_pos hc)), zero_mul]

end Point

namespace Placement

section Base

variable {names : List String} {P : String → Point ℝ} {v s t : String}

theorem OnBase.ne (h : OnBase names P v s t) (hy : 0 < (P v).y) :
    P v ≠ P s ∧ P v ≠ P t ∧ P s ≠ P t := by
  have hv : ∀ x, P v ≠ ⟨x, 0⟩ := fun x heq => by simp [heq] at hy
  have hst : (⟨-2, 0⟩ : Point ℝ) ≠ ⟨2, 0⟩ := fun heq => by norm_num [Point.mk.injEq] at heq
  rw [h.left, h.right]
  exact ⟨hv (-2), hv 2, hst⟩

/-- The angles at the base are acute while the apex is over it. -/
theorem OnBase.base_angles (h : OnBase names P v s t) (hy : 0 < (P v).y) (hx : |(P v).x| < 2) :
    ∠ (P v).toPlane (P s).toPlane (P t).toPlane < Real.pi / 2 ∧
      ∠ (P v).toPlane (P t).toPlane (P s).toPlane < Real.pi / 2 := by
  obtain ⟨hlow, hhigh⟩ := abs_lt.mp hx
  obtain ⟨hs, ht, hst⟩ := h.ne hy
  rw [Point.angle_lt_right_iff hs hst.symm, Point.angle_lt_right_iff ht hst, h.left, h.right]
  constructor
  · norm_num [Point.dot]
    linarith
  · norm_num [Point.dot]
    linarith

/-- The angle at the apex is acute outside of the circle over the base. -/
theorem OnBase.apex_angle (h : OnBase names P v s t) (hy : 0 < (P v).y) :
    ∠ (P s).toPlane (P v).toPlane (P t).toPlane < Real.pi / 2 ↔ 4 < (P v).x ^ 2 + (P v).y ^ 2 := by
  obtain ⟨hs, ht, -⟩ := h.ne hy
  rw [Point.angle_lt_right_iff hs.symm ht.symm, h.dot_apex, sub_pos]

/-- Inside of the circle, it is obtuse. -/
theorem OnBase.apex_angle_obtuse (h : OnBase names P v s t) (hy : 0 < (P v).y) :
    Real.pi / 2 < ∠ (P s).toPlane (P v).toPlane (P t).toPlane ↔ (P v).x ^ 2 + (P v).y ^ 2 < 4 := by
  obtain ⟨hs, ht, -⟩ := h.ne hy
  rw [← not_le, Point.angle_le_right_iff hs.symm ht.symm, h.dot_apex, not_le, sub_neg]

end Base

theorem height_strictMono (acute : Bool) : StrictMono (height acute) := by
  intro y z h
  have hsigmoid := Real.sigmoid_lt h
  simp only [height]
  linarith

/-- Here the apex is on the circle over the base, if it is over the middle. -/
theorem height_log : height true (Real.log (3 / 7)) = 2 := by
  have hsigmoid : Real.sigmoid (Real.log (3 / 7)) = 3 / 10 := by
    rw [Real.sigmoid_def, Real.exp_neg, Real.exp_log (by norm_num)]
    norm_num
  rw [height, hsigmoid, if_pos rfl]
  norm_num

theorem four_lt_height_sq_iff (z : ℝ) : 4 < height true z ^ 2 ↔ Real.log (3 / 7) < z := by
  have hfour : (4 : ℝ) = height true (Real.log (3 / 7)) ^ 2 := by norm_num [height_log]
  rw [hfour, sq_lt_sq₀ (height_pos ..).le (height_pos ..).le, (height_strictMono true).lt_iff_lt]

variable {a b c : String}

/-- Triangles that are asked to be acute have acute angles at the base while the apex is over it, but at
the apex only outside of the circle over the base. An isosceles one is acute just if its variable
exceeds the logarithm of 3/7, about -0.847, and then so is any other of that height. -/
theorem acute_triangles (hnames : [a, b, c].Nodup) (k : Nat) (ρ : Nat → ℝ) :
    (∀ v ∈ [a, b, c], ∃ P s t, PlacesTriangle [a, b, c] "acuteIsoTri" [v] k ρ P v s t ∧
      ∠ (P v).toPlane (P s).toPlane (P t).toPlane < Real.pi / 2 ∧
      ∠ (P v).toPlane (P t).toPlane (P s).toPlane < Real.pi / 2 ∧
      (∠ (P s).toPlane (P v).toPlane (P t).toPlane < Real.pi / 2 ↔ Real.log (3 / 7) < ρ k)) ∧
    ∀ args, |ρ k| < 2 → ∃ P s t, PlacesTriangle [a, b, c] "acuteTri" args k ρ P a s t ∧
      ∠ (P a).toPlane (P s).toPlane (P t).toPlane < Real.pi / 2 ∧
      ∠ (P a).toPlane (P t).toPlane (P s).toPlane < Real.pi / 2 ∧
      (∠ (P s).toPlane (P a).toPlane (P t).toPlane < Real.pi / 2 ↔
        4 < ρ k ^ 2 + height true (ρ (k + 1)) ^ 2) ∧
      (Real.log (3 / 7) < ρ (k + 1) →
        ∠ (P s).toPlane (P a).toPlane (P t).toPlane < Real.pi / 2) := by
  constructor
  · intro v hv
    have hid : Sampler.ofId "acuteIsoTri" [v] =
        .ok (.triangle { iso := some v, acute := true }) := rfl
    obtain ⟨P, s, t, htriangle, htop⟩ := placesTriangle_iso hnames hv k ρ hid
    have hy : 0 < (P v).y := htop ▸ height_pos true (ρ k)
    have hx : |(P v).x| < 2 := by norm_num [htop]
    obtain ⟨hs, ht⟩ := htriangle.onBase.base_angles hy hx
    refine ⟨P, s, t, htriangle, hs, ht, (htriangle.onBase.apex_angle hy).trans ?_⟩
    rw [← four_lt_height_sq_iff, htop, zero_pow two_ne_zero, zero_add]
  · intro args hk
    obtain ⟨P, s, t, htriangle, htop⟩ := placesTriangle_acute hnames k ρ args
    have hy : 0 < (P a).y := htop ▸ height_pos true (ρ (k + 1))
    have hx : |(P a).x| < 2 := htop ▸ hk
    obtain ⟨hs, ht⟩ := htriangle.onBase.base_angles hy hx
    have hapex := htriangle.onBase.apex_angle hy
    rw [htop] at hapex
    refine ⟨P, s, t, htriangle, hs, ht, htop ▸ hapex, fun hz => ?_⟩
    have hheight := (four_lt_height_sq_iff (ρ (k + 1))).mpr hz
    rw [htop]
    exact hapex.mpr (hheight.trans_le (le_add_of_nonneg_left (sq_nonneg (ρ k))))

/-- A triangle whose variables are at the upper end of their range. -/
theorem acute_triangles_upper_end :
    ["A", "B", "C"].Nodup ∧ ∃ P s t,
      PlacesTriangle ["A", "B", "C"] "acuteTri" [] 0 (fun _ => 1) P "A" s t ∧
        ∠ (P s).toPlane (P "A").toPlane (P t).toPlane < Real.pi / 2 := by
  have hnames : ["A", "B", "C"].Nodup := by decide
  obtain ⟨-, hacute⟩ := acute_triangles hnames 0 fun _ => 1
  obtain ⟨P, s, t, htriangle, -, -, -, hapex⟩ := hacute [] (by norm_num)
  have hlog : Real.log (3 / 7) < 1 :=
    (Real.log_neg (by norm_num) (by norm_num)).trans zero_lt_one
  exact ⟨hnames, P, s, t, htriangle, hapex hlog⟩

/-- At the lower end of the range from which its variable is drawn, an isosceles triangle that is asked
to be acute is obtuse. -/
theorem acute_isosceles_obtuse :
    ∃ P s t, PlacesTriangle ["A", "B", "C"] "acuteIsoTri" ["A"] 0 (fun _ => -1) P "A" s t ∧
      Real.pi / 2 < ∠ (P s).toPlane (P "A").toPlane (P t).toPlane := by
  have hlog : -1 < Real.log (3 / 7) := by
    have hexp := Real.exp_neg_one_lt_d9
    rw [Real.lt_log_iff_exp_lt (by norm_num)]
    norm_num at hexp ⊢
    linarith
  have hid : Sampler.ofId "acuteIsoTri" ["A"] =
      .ok (.triangle { iso := some "A", acute := true }) := rfl
  obtain ⟨P, s, t, htriangle, htop⟩ :=
    placesTriangle_iso (b := "B") (c := "C") (by decide) List.mem_cons_self 0 (fun _ => -1) hid
  refine ⟨P, s, t, htriangle, (htriangle.onBase.apex_angle_obtuse ?_).mpr ?_⟩
  · rw [htop]
    exact height_pos true (-1)
  · have hheight : height true (-1) < 2 := height_log ▸ height_strictMono true hlog
    rw [htop]
    nlinarith [height_pos true (-1)]

end Placement

end PlaneFigure
