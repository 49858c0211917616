import PlaneFigure.Proofs.Draft.Solved
import PlaneFigure.Proofs.Draft.Verdict
import PlaneFigure.Proofs.Geometry.Construction
import PlaneFigure.Proofs.Number.Rounding

/-!
Intersections of lines in drafts. Lines are intersected just if they are far enough from parallel at
the current coordinates of the points, on numbers and on formulas alike.
-/

namespace PlaneFigure

open PlaneFigure.Geometry Exact

theorem Geometry.Line.transversal_points {R : Type} [Number R] (degeneracy : R) (l m : Line R) :
    l.transversal degeneracy m =
      (calculate l.points).transversal degeneracy (calculate m.points) :=
  rfl

/-- On doubles, the rounded product of the lengths is not negative, so what exceeds it is not zero. -/
theorem Geometry.TwoPoints.det_of_transversal {ε : Float} {l m : TwoPoints Float} (hε : 0 ≤ ε)
    (h : l.transversal ε m = true) : 0 < (calculate (l.det m)).abs := by
  have hbound : ∀ x y : Float, Double.NotNegative (ε * (x.sqrt * y.sqrt)) := fun x y =>
    .mul (fun _ => hε) ((Double.notNegative_sqrt x).mul (Double.notNegative_sqrt y))
  exact (hbound _ _).pos (of_decide_eq_true h)

theorem Geometry.Line.map_id {S : Type} (l : Line S) : l.map id = l := by
  cases l <;> rfl

namespace Draft

section Current

variable {S R μ : Type} [Number R] [Scalar S R μ]

/-- The points with their current coordinates. -/
def current (d : Draft S R μ) : PointTable R := d.points.map d.canvas.value

theorem current_numbers (d : Draft R R Unit) : d.current = d.points :=
  congrArg PointTable.mk (List.map_id _)

/-- An instruction that asks for the intersection of two lines, by the current coordinates. -/
theorem check_of_current {d : Draft S R μ} {i : Instruction} {name : String}
    {l m : LineSpec × Line R} (h : d.current.check i = .ok (.intersect name l m)) :
    ∃ l' m', d.points.check i = .ok (.intersect name l' m') ∧
      l = (l'.1, l'.2.map d.canvas.value) ∧ m = (m'.1, m'.2.map d.canvas.value) := by
  rw [current, PointTable.check_map] at h
  cases ha : d.points.check i with
  | error e =>
      rw [ha] at h
      cases h
  | ok a =>
      rw [ha] at h
      cases a <;> cases h
      exact ⟨_, _, rfl, rfl, rfl⟩

/-- An intersection is added just if the lines are far enough from parallel, and then its current
coordinates are those that are computed. -/
def Intersects [Uniform R] (d : Draft S R μ) : Prop :=
  ∀ i name l m, d.current.check i = .ok (.intersect name l m) →
    if l.2.transversal d.settings.degeneracy m.2 then
      ∃ x d', process i d = (.ok x, d') ∧ d'.current = d.current.append
        [(name, calculate ((calculate l.2.points).intersection (calculate m.2.points)))]
    else process i d = (.error (.parallelLines l.1 m.1), d)

theorem Intersects.refused_iff [Uniform R] {d : Draft S R μ} (h : d.Intersects)
    {i : Instruction} {name : String} {l m : LineSpec × Line R}
    (hi : d.current.check i = .ok (.intersect name l m)) :
    process i d = (.error (.parallelLines l.1 m.1), d) ↔
      l.2.transversal d.settings.degeneracy m.2 = false := by
  have hresult := h i name l m hi
  split_ifs at hresult with htransversal
  · obtain ⟨x, d', hx, -⟩ := hresult
    rw [hx, htransversal]
    exact iff_of_false nofun nofun
  · exact iff_of_true hresult (Bool.eq_false_iff.mpr htransversal)

end Current

section

variable {R : Type} [Number R] [Uniform R]

theorem intersects_numbers (d : Draft R R Unit) : d.Intersects := by
  intro i name l m hcurrent
  obtain ⟨l', m', hi, rfl, rfl⟩ := check_of_current hcurrent
  have hl : l'.2.map d.canvas.value = l'.2 := l'.2.map_id
  have hm : m'.2.map d.canvas.value = m'.2 := m'.2.map_id
  dsimp only
  rw [hl, hm, ← crosses_numbers d.settings.degeneracy d.canvas]
  split_ifs with hcross
  · refine ⟨_, _, process_crossing hi hcross, ?_⟩
    rw [current_numbers, current_numbers]
    rfl
  · exact process_parallel hi (Bool.eq_false_iff.mpr hcross)

/-- What is added has the coordinates that are computed from the current ones. -/
theorem Sound.current_process {d d' : SymbolicDraft R} (h : d.Sound) {i : Instruction}
    {x : Addition (Formula R) R} {a : Action R} (hi : process i d = (.ok x, d'))
    (hcheck : d.current.check i = .ok a) (ha : ∀ p, a ≠ .place p) :
    d'.current = d.current.append (calculate a.record).points := by
  obtain ⟨b, c, hb, hrun, rfl⟩ := Draft.process_ok hi
  rw [current, PointTable.check_map, hb] at hcheck
  cases hcheck
  obtain ⟨p, rfl, -⟩ | ⟨hne, -, hkept⟩ := Action.run_ok hrun
  · exact (ha p rfl).elim
  obtain ⟨-, ⟨hle, -⟩, hvalues⟩ := h.process_ok hi hb
  have hassignment : c.assignment = d.canvas.assignment := by
    rw [hkept]
    rfl
  have hold := h.tables.points_eq hle (ρ := d.canvas.assignment)
  have hnew := congrArg Addition.points (hvalues d.canvas.assignment hne)
  refine congrArg PointTable.mk ?_
  change (d.points.entries ++ x.points).map (fun e => (e.1, e.2.map (c.memory.value c.assignment))) = _
  rw [List.map_append, hassignment]
  exact congrArg₂ (· ++ ·) hold hnew

theorem Sound.intersects {d : SymbolicDraft R} (h : d.Sound) : d.Intersects := by
  intro i name l m hcurrent
  obtain ⟨l', m', hi, rfl, rfl⟩ := check_of_current hcurrent
  have hcrosses : (l'.2.map d.canvas.value).transversal d.settings.degeneracy
      (m'.2.map d.canvas.value) = crosses d.settings.degeneracy d.canvas l'.2 m'.2 :=
    (h.crosses_eq d.settings.degeneracy hi).symm
  dsimp only
  rw [hcrosses]
  split_ifs with hcross
  · have hprocess := process_crossing hi hcross
    exact ⟨_, _, hprocess, h.current_process hprocess hcurrent nofun⟩
  · exact process_parallel hi (Bool.eq_false_iff.mpr hcross)

/-- Drafts on formulas to which instructions lead that are carried out one by one, also after some
have been refused, and while the variables are given other values. -/
inductive Evolved : SymbolicDraft R → Prop
  | start (draws : Draws R) (settings : DraftSettings R) :
      Evolved ⟨{ memory := Graph.empty, draws }, settings, {}, {}⟩
  | process {d : SymbolicDraft R} (h : Evolved d) (i : Instruction) : Evolved (process i d).2
  | assign {d : SymbolicDraft R} (h : Evolved d) (xs : Array R) :
      Evolved { d with canvas := d.canvas.setAll xs }

theorem Evolved.sound [Range.AllSound R] {d : SymbolicDraft R} (h : Evolved d) : d.Sound := by
  induction h with
  | start draws settings => exact .start draws settings
  | process _ i ih => exact ih.after_process i
  | assign _ xs ih =>
      refine ⟨ih.graph, ih.tables, ?_⟩
      rw [Canvas.setAll, Array.size_mapIdx]
      exact ih.leaves

end

/-! ### Only lines that cross -/

section

variable {S μ : Type}

/-- Unless the threshold is negative, the determinant of two lines that are intersected is not zero, by
the current coordinates. -/
def CrossesOnly {R : Type} [Number R] [Uniform R] [Scalar S R μ] (d : Draft S R μ) : Prop :=
  Number.le 0.0 d.settings.degeneracy = true →
  ∀ i name l m x d', d.current.check i = .ok (.intersect name l m) → process i d = (.ok x, d') →
    Number.lt 0.0 (Number.abs (calculate ((calculate l.2.points).det (calculate m.2.points)))) = true

theorem Intersects.transversal_of_ok {R : Type} [Number R] [Uniform R] [Scalar S R μ]
    {d d' : Draft S R μ} {i : Instruction} {name : String} {l m : LineSpec × Line R}
    {x : Addition S R} (h : d.Intersects) (hi : d.current.check i = .ok (.intersect name l m))
    (hx : process i d = (.ok x, d')) :
    l.2.transversal d.settings.degeneracy m.2 = true ∧ d'.current = d.current.append
      [(name, calculate ((calculate l.2.points).intersection (calculate m.2.points)))] := by
  have hresult := h i name l m hi
  split_ifs at hresult with htransversal
  · obtain ⟨x', d₁, hx', hcurrent⟩ := hresult
    cases hx.symm.trans hx'
    exact ⟨htransversal, hcurrent⟩
  · cases hx.symm.trans hresult

theorem Intersects.crossesOnly_double [Scalar S Float μ] {d : Draft S Float μ} (h : d.Intersects) :
    d.CrossesOnly := by
  intro hε i name l m x d' hi hx
  obtain ⟨htransversal, -⟩ := h.transversal_of_ok hi hx
  exact decide_eq_true (TwoPoints.det_of_transversal (of_decide_eq_true hε) htransversal)

/-- In exact arithmetic, unless the threshold is negative, what is added is the only common point of two
lines that are not parallel. -/
def AddsCommonPoints [Scalar S Exact μ] (d : Draft S Exact μ) : Prop :=
  ∀ ε : ℝ, 0 ≤ ε → d.settings.degeneracy = real ε →
  ∀ i name l m x d', d.current.check i = .ok (.intersect name l m) → process i d = (.ok x, d') →
    ∃ (n k : TwoPoints ℝ) (p : Point ℝ), calculate l.2.points = n.exact ∧
      calculate m.2.points = k.exact ∧ calculate (n.exact.det k.exact) ≠ real 0 ∧ n.MeetsAt k p ∧
      d'.current = d.current.append [(name, p.exact)]

theorem Intersects.addsCommonPoints [Scalar S Exact μ] {d : Draft S Exact μ} (h : d.Intersects) :
    d.AddsCommonPoints := by
  intro ε hε hdegeneracy i name l m x d' hi hx
  obtain ⟨htransversal, hcurrent⟩ := h.transversal_of_ok hi hx
  rw [hdegeneracy, Line.transversal_points] at htransversal
  obtain ⟨n, k, hn, hk, hcross⟩ := TwoPoints.real_of_transversal hε htransversal
  obtain ⟨p, hmeets, hp⟩ := TwoPoints.meetsAt_intersection hcross
  refine ⟨n, k, p, hn, hk, fun hzero => ?_, hmeets, ?_⟩
  · rw [TwoPoints.calculate_det_exact, real.injEq] at hzero
    exact hcross hzero
  · rw [hcurrent, hn, hk, hp]

/-! ### The same decision elsewhere -/

/-- With a threshold, the draft is asked to intersect two lines through these points, and does so or
does not. -/
def Judges [Scalar S Exact μ] (d : Draft S Exact μ) (ε : ℝ) (lines : TwoPoints ℝ × TwoPoints ℝ)
    (accepted : Bool) : Prop :=
  d.settings.degeneracy = real ε ∧ ∃ i name l m,
    d.current.check i = .ok (.intersect name l m) ∧ calculate l.2.points = lines.1.exact ∧
      calculate m.2.points = lines.2.exact ∧ (process i d).1.isOk = accepted

/-- Only the points and the threshold matter. -/
theorem Intersects.judges [Scalar S Exact μ] {d : Draft S Exact μ} (h : d.Intersects) {ε : ℝ}
    {lines : TwoPoints ℝ × TwoPoints ℝ} {accepted : Bool} (hd : d.Judges ε lines accepted) :
    accepted = lines.1.exact.transversal (real ε) lines.2.exact := by
  obtain ⟨hε, i, name, l, m, hi, hl, hm, rfl⟩ := hd
  have hresult := h i name l m hi
  rw [Line.transversal_points, hε, hl, hm] at hresult
  split_ifs at hresult with htransversal
  · obtain ⟨x, d', hx, -⟩ := hresult
    rw [htransversal, hx]
    rfl
  · rw [Bool.eq_false_iff.mpr htransversal, hresult]
    rfl

end

/-- What some draft decides, on numbers or on formulas. -/
def Verdict (ε : ℝ) (lines : TwoPoints ℝ × TwoPoints ℝ) (accepted : Bool) : Prop :=
  (∃ d : Draft Exact Exact Unit, d.Judges ε lines accepted) ∨
    ∃ d : SymbolicDraft Exact, Evolved d ∧ d.Judges ε lines accepted

theorem Verdict.numbers {d : Draft Exact Exact Unit} {ε : ℝ} {i : Instruction} {name : String}
    {l m : LineSpec × Line Exact} {n k : TwoPoints ℝ} (hε : d.settings.degeneracy = real ε)
    (hi : d.current.check i = .ok (.intersect name l m)) (hl : calculate l.2.points = n.exact)
    (hm : calculate m.2.points = k.exact) : Verdict ε (n, k) (process i d).1.isOk :=
  .inl ⟨d, hε, i, name, l, m, hi, hl, hm, rfl⟩

theorem Verdict.eq_transversal {ε : ℝ} {lines : TwoPoints ℝ × TwoPoints ℝ} {accepted : Bool}
    (h : Verdict ε lines accepted) :
    accepted = lines.1.exact.transversal (real ε) lines.2.exact := by
  obtain ⟨d, hd⟩ | ⟨d, hevolved, hd⟩ := h
  · exact (intersects_numbers d).judges hd
  · exact hevolved.sound.intersects.judges hd

/-- In exact arithmetic, two lines whose determinant is not zero have one point in common, and it is
what is computed from any two points of each, in either order, and by their slopes if they have
any. Drafts add nothing but such points if the threshold is not negative, neither on numbers nor on
formulas; on doubles, the determinant is not zero there. And whether a draft intersects two lines
does not depend on their order, on the order of the points of each, and on where the figure is, how
it is turned and how large it is. -/
theorem lines_cross :
    (∀ l m : TwoPoints ℝ, calculate (l.exact.det m.exact) ≠ real 0 →
      ∃ x, l.MeetsAt m x ∧ calculate (l.exact.intersection m.exact) = x.exact ∧
        (∀ l' m' : TwoPoints ℝ, l'.Redraws l → m'.Redraws m →
          calculate (l'.exact.intersection m'.exact) = x.exact ∧
            calculate (m'.exact.intersection l'.exact) = x.exact) ∧
        ((calculate l.exact.slope).IsReal → (calculate m.exact.slope).IsReal →
          x.exact.x = (calculate m.exact.intercept - calculate l.exact.intercept) /
              (calculate l.exact.slope - calculate m.exact.slope) ∧
            x.exact.y = calculate l.exact.slope * x.exact.x + calculate l.exact.intercept)) ∧
    ((∀ d : Draft Exact Exact Unit, d.AddsCommonPoints) ∧
      ∀ d : SymbolicDraft Exact, Evolved d → d.AddsCommonPoints) ∧
    ((∀ d : Draft Float Float Unit, d.CrossesOnly) ∧
      ∀ d : SymbolicDraft Float, Evolved d → d.CrossesOnly) ∧
    ∀ ε lines lines' accepted accepted', TwoPoints.Rearranged lines lines' →
      Verdict ε lines accepted → Verdict ε lines' accepted' → accepted' = accepted := by
  refine ⟨fun l m hdet => ?_, ⟨fun d => (intersects_numbers d).addsCommonPoints,
    fun d hd => hd.sound.intersects.addsCommonPoints⟩,
    ⟨fun d => (intersects_numbers d).crossesOnly_double,
      fun d hd => hd.sound.intersects.crossesOnly_double⟩, ?_⟩
  · have hcross : l.cross m ≠ 0 := fun h => hdet (congrArg real h)
    obtain ⟨hl, hm⟩ := TwoPoints.ne_of_cross hcross
    obtain ⟨x, hx, hcalculate⟩ := TwoPoints.meetsAt_intersection hcross
    refine ⟨x, hx, hcalculate, fun l' m' hl' hm' => ?_, hx.slope_form hcross⟩
    have hredrawn := hx.redrawn hl hm hl' hm'
    have hcross' := hl'.cross_ne_zero hm' hcross
    refine ⟨hredrawn.intersection_eq hcross', hredrawn.symm.intersection_eq ?_⟩
    rwa [TwoPoints.cross_comm, neg_ne_zero]
  · intro ε lines lines' accepted accepted' hrearranged h h'
    rw [h.eq_transversal, h'.eq_transversal]
    exact hrearranged.transversal_eq

/-- A draft on numbers, of points in these places. -/
noncomputable def located (settings : DraftSettings Exact) (places : List (String × Point ℝ)) :
    Draft Exact Exact Unit :=
  ⟨Canvas.start () (.constant (real 0)), settings, ⟨places.map fun e => (e.1, e.2.exact)⟩, {}⟩

/-- The corners of a square, and the intersection of its diagonals. -/
theorem lines_cross_diagonals :
    let l : TwoPoints ℝ := ⟨⟨0, 0⟩, ⟨2, 2⟩⟩
    let m : TwoPoints ℝ := ⟨⟨0, 2⟩, ⟨2, 0⟩⟩
    let ac : LineSpec := ⟨"connecting", ["A", "C"]⟩
    let bd : LineSpec := ⟨"connecting", ["B", "D"]⟩
    let d := located ⟨real 0, real 0, real 0⟩ [("A", l.p), ("B", m.p), ("C", l.q), ("D", m.q)]
    let e : Draft Float Float Unit := ⟨Canvas.start () (.constant 0.0), .standard,
      ⟨[("A", ⟨0.0, 0.0⟩), ("B", ⟨0.0, 2.0⟩), ("C", ⟨2.0, 2.0⟩), ("D", ⟨2.0, 0.0⟩)]⟩, {}⟩
    let i : Instruction := .compute "X" ⟨"interLL", [.line ac, .line bd]⟩
    let j : Instruction := .compute "X" ⟨"interLL", [.line bd, .line ac]⟩
    (∃ x, l.MeetsAt m x ∧ calculate (l.exact.intersection m.exact) = x.exact ∧
      calculate (m.reverse.exact.intersection l.exact) = x.exact) ∧
    (process j d).1.isOk = (process i d).1.isOk ∧
    (process i e).1.isOk = true ∧ Number.lt 0.0 (Number.abs (calculate (TwoPoints.det
      (calculate (Line.connecting ⟨0.0, 0.0⟩ ⟨2.0, 2.0⟩).points)
      (calculate (Line.connecting ⟨0.0, 2.0⟩ ⟨2.0, 0.0⟩).points)) : Float)) = true := by
  intro l m ac bd d e i j
  have hl : l.p ≠ l.q := by simp [l]
  have hm : m.p ≠ m.q := by simp [m]
  have hdet : calculate (l.exact.det m.exact) ≠ real 0 := by
    rw [TwoPoints.calculate_det_exact, ne_eq, real.injEq]
    norm_num [TwoPoints.cross, Point.cross, l, m]
  have hreverse : m.reverse.Redraws m :=
    ⟨hm.symm, right_mem_affineSpan_pair .., left_mem_affineSpan_pair ..⟩
  have hok : (process i e).1.isOk = true := by decide +kernel
  refine ⟨?_, ?_, hok, ?_⟩
  · obtain ⟨x, hx, hcalculate, hredrawn, -⟩ := lines_cross.1 l m hdet
    exact ⟨x, hx, hcalculate, (hredrawn l m.reverse (.refl hl) hreverse).2⟩
  · have hac : calculate (Line.connecting l.p.exact l.q.exact).points = l.exact := rfl
    have hbd : calculate (Line.connecting m.p.exact m.q.exact).points = m.exact := rfl
    have hi : d.current.check i = .ok (.intersect "X" (ac, .connecting l.p.exact l.q.exact)
        (bd, .connecting m.p.exact m.q.exact)) := by
      rw [current_numbers]
      rfl
    have hj : d.current.check j = .ok (.intersect "X" (bd, .connecting m.p.exact m.q.exact)
        (ac, .connecting l.p.exact l.q.exact)) := by
      rw [current_numbers]
      rfl
    exact lines_cross.2.2.2 0 (l, m) (m, l) _ _ (.swap l m)
      (.numbers rfl hi hac hbd) (.numbers rfl hj hbd hac)
  · have hcheck : e.current.check i = .ok (.intersect "X"
        (ac, .connecting ⟨0.0, 0.0⟩ ⟨2.0, 2.0⟩) (bd, .connecting ⟨0.0, 2.0⟩ ⟨2.0, 0.0⟩)) := by
      rw [current_numbers]
      rfl
    cases hi : process i e with
    | mk result e' =>
        cases result with
        | error err =>
            rw [hi] at hok
            cases hok
        | ok x =>
            have hε : Number.le 0.0 e.settings.degeneracy = true := by decide +kernel
            have honly : e.CrossesOnly := lines_cross.2.2.1.1 e
            -- on its own, as it would be computed to compare it with the goal before the lines are known
            have hcrosses := honly hε i "X" _ _ x e' hcheck hi
            exact hcrosses

end Draft

end PlaneFigure
