import PlaneFigure.Proofs.Draft.Crossing

/-!
Lines that drafts refuse to intersect. In exact arithmetic, two lines that are determined by their
points are refused as they should be, if they are parallel or almost, except for the bisectors of
straight angles: both points of such a line are the vertex, and it is refused whatever the other.
-/

namespace PlaneFigure

open PlaneFigure.Geometry Exact

namespace Draft

section

variable {S μ : Type}

/-- Two lines are refused just if one of them is a bisector of a straight angle, or if the lines
through the points that they yield are inclined to each other too little for the threshold; if that
is zero, if those are parallel. -/
def RefusesParallel [Scalar S Exact μ] (d : Draft S Exact μ) (l m : Line ℝ)
    (n k : TwoPoints ℝ) : Prop :=
  ∀ ε : ℝ, d.settings.degeneracy = real ε → ∀ i name s t,
    d.current.check i = .ok (.intersect name (s, l.map real) (t, m.map real)) →
    (process i d = (.error (.parallelLines s t), d) ↔
      l.Straight ∨ m.Straight ∨ Real.sin (n.inclination k) ≤ ε) ∧
    (ε = 0 → (process i d = (.error (.parallelLines s t), d) ↔
      l.Straight ∨ m.Straight ∨ n.Parallel k))

theorem Intersects.refusesParallel [Scalar S Exact μ] {d : Draft S Exact μ} (h : d.Intersects)
    {l m : Line ℝ} (hl : l.Determined) (hm : m.Determined) :
    d.RefusesParallel l m l.pair m.pair := by
  intro ε hε i name s t hi
  have hrefused : process i d = (.error (.parallelLines s t), d) ↔
      l.Straight ∨ m.Straight ∨ Real.sin (l.pair.inclination m.pair) ≤ ε := by
    rw [← hl.pair_eq_iff, ← hm.pair_eq_iff, ← TwoPoints.not_transversal_iff, ← hε,
      ← Line.calculate_points_exact hl.angled, ← Line.calculate_points_exact hm.angled]
    exact h.refused_iff hi
  refine ⟨hrefused, ?_⟩
  rintro rfl
  rw [hrefused]
  refine or_congr_right' fun hl' => or_congr_right' fun hm' => (TwoPoints.parallel_iff ?_ ?_).symm
  · exact mt hl.pair_eq_iff.mp hl'
  · exact mt hm.pair_eq_iff.mp hm'

end

/-- In exact arithmetic, lines that are determined by their points yield two points each, which are
real, and different except for the bisectors of straight angles. These are refused as if they were
parallel to every line; other lines are refused just if they are inclined to each other too little
for the threshold, if that is zero just if they are parallel. -/
theorem refuses_parallel (l m : Line ℝ) (hl : l.Determined) (hm : m.Determined) :
    ∃ n k : TwoPoints ℝ,
      (calculate (l.map real).points = n.exact ∧ (n.p ≠ n.q ↔ ¬l.Straight)) ∧
      (calculate (m.map real).points = k.exact ∧ (k.p ≠ k.q ↔ ¬m.Straight)) ∧
      (∀ d : Draft Exact Exact Unit, d.RefusesParallel l m n k) ∧
      ∀ d : SymbolicDraft Exact, Evolved d → d.RefusesParallel l m n k :=
  ⟨l.pair, m.pair, ⟨Line.calculate_points_exact hl.angled, not_congr hl.pair_eq_iff⟩,
    ⟨Line.calculate_points_exact hm.angled, not_congr hm.pair_eq_iff⟩,
    fun d => (intersects_numbers d).refusesParallel hl hm,
    fun _ hd => hd.sound.intersects.refusesParallel hl hm⟩

/-- The bisector of a right angle, and a line that it meets. -/
theorem refuses_parallel_right_angle :
    let a : Point ℝ := ⟨1, 0⟩
    let b : Point ℝ := ⟨0, 0⟩
    let c : Point ℝ := ⟨0, 1⟩
    let p : Point ℝ := ⟨1, 1⟩
    let q : Point ℝ := ⟨-2, 1⟩
    let l : Line ℝ := .internalBisector a b c
    let d := located ⟨real 0, real 0, real 0⟩ [("A", a), ("B", b), ("C", c), ("D", p), ("E", q)]
    let abc : LineSpec := ⟨"ibisector", ["A", "B", "C"]⟩
    let de : LineSpec := ⟨"connecting", ["D", "E"]⟩
    let i : Instruction := .compute "X" ⟨"interLL", [.line abc, .line de]⟩
    (∃ n : TwoPoints ℝ, calculate (l.map real).points = n.exact ∧ n.p ≠ n.q) ∧
      process i d ≠ (.error (.parallelLines abc de), d) := by
  intro a b c p q l d abc de i
  have hl : l.Determined := ⟨by simp [a, b], by simp [b, c]⟩
  have hm : (Line.connecting p q).Determined := by norm_num [Line.Determined, p, q]
  have hbent : ¬l.Straight := by
    intro hstraight
    obtain ⟨r, hr, hx, -⟩ := (Point.angle_eq_pi_iff hl.1).mp hstraight
    have hzero : r = 0 := by simpa [a, b, c] using hx.symm
    exact hr.ne hzero
  have hi : d.current.check i =
      .ok (.intersect "X" (abc, l.map real) (de, (Line.connecting p q).map real)) := by
    rw [current_numbers]
    rfl
  have hcross : l.pair.cross ⟨p, q⟩ ≠ 0 := by
    norm_num [TwoPoints.cross, Point.cross, Line.pair, Point.bisecting, Point.quadrance, l, a, b,
      c, p, q]
  obtain ⟨n, k, ⟨hn, hdifferent⟩, ⟨hk, -⟩, hnumbers, -⟩ := refuses_parallel l _ hl hm
  refine ⟨⟨n, hn, hdifferent.mpr hbent⟩, fun hrefused => ?_⟩
  obtain ⟨-, hzero⟩ := hnumbers d 0 rfl i "X" abc de hi
  obtain rfl := TwoPoints.exact_injective ((Line.calculate_points_exact hl.angled).symm.trans hn)
  obtain rfl := TwoPoints.exact_injective ((Line.calculate_points_exact hm.angled).symm.trans hk)
  obtain hstraight | hnever | hparallel := (hzero rfl).mp hrefused
  · exact hbent hstraight
  · exact hnever
  · obtain ⟨hl, hm⟩ := TwoPoints.ne_of_cross hcross
    exact hcross ((TwoPoints.parallel_iff_cross hl hm).mp hparallel)

/-- Where the bisector of a straight angle would meet a line, no intersection is found: of the
perpendicular, only the vertex is known. -/
theorem straight_angle_refused :
    let a : Point ℝ := ⟨1, 0⟩
    let b : Point ℝ := ⟨0, 0⟩
    let c : Point ℝ := ⟨-1, 0⟩
    let p : Point ℝ := ⟨1, 1⟩
    let q : Point ℝ := ⟨-2, 1⟩
    let l : Line ℝ := .internalBisector a b c
    let d := located .standard [("A", a), ("B", b), ("C", c), ("D", p), ("E", q)]
    let abc : LineSpec := ⟨"ibisector", ["A", "B", "C"]⟩
    let de : LineSpec := ⟨"connecting", ["D", "E"]⟩
    l.Determined ∧ calculate (l.map real).points = TwoPoints.exact ⟨b, b⟩ ∧
      (∃ m : TwoPoints ℝ, calculate ((Line.perpendicular b a c).map real).points = m.exact ∧
        m.MeetsAt ⟨p, q⟩ ⟨0, 1⟩) ∧
      process (.compute "X" ⟨"interLL", [.line abc, .line de]⟩) d =
        (.error (.parallelLines abc de), d) := by
  intro a b c p q l d abc de
  have hl : l.Determined := ⟨by simp [a, b], by simp [b, c]⟩
  have hstraight : l.Straight :=
    (Point.angle_eq_pi_iff hl.1).mpr ⟨-1, by norm_num, by norm_num [a, b, c], by norm_num [a, b, c]⟩
  have hde : (Line.connecting p q).Determined := by norm_num [Line.Determined, p, q]
  have hfoot : Point.bisecting a b c = b := (Point.bisecting_eq_iff hl.1 hl.2).mpr hstraight
  have hcross : (Line.perpendicular b a c).pair.cross ⟨p, q⟩ ≠ 0 := by
    norm_num [TwoPoints.cross, Point.cross, Line.pair, Point.upright, a, b, c, p, q]
  refine ⟨hl, ?_, ?_, ?_⟩
  · rw [Line.calculate_points_exact hl.angled, Line.pair, hfoot]
  · obtain ⟨hmpq, hpq⟩ := TwoPoints.ne_of_cross hcross
    obtain ⟨x, hx, -⟩ := TwoPoints.meetsAt_intersection hcross
    have hcommon : (⟨0, 1⟩ : Point ℝ) = x := (hx _).mp
      ⟨(TwoPoints.contains_iff hmpq).mpr (by simp [Point.cross, Line.pair, Point.upright, a, b, c]),
        (TwoPoints.contains_iff hpq).mpr (by simp [Point.cross, p, q])⟩
    exact ⟨_, Line.calculate_points_exact trivial, hcommon ▸ hx⟩
  · have hi : d.current.check (.compute "X" ⟨"interLL", [.line abc, .line de]⟩) =
        .ok (.intersect "X" (abc, l.map real) (de, (Line.connecting p q).map real)) := by
      rw [current_numbers]
      rfl
    obtain ⟨hrefused, -⟩ :=
      (intersects_numbers d).refusesParallel hl hde _ rfl _ _ _ _ hi
    exact hrefused.mpr (.inl hstraight)

end Draft

end PlaneFigure
