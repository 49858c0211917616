import PlaneFigure.Proofs.Draft.Solved
import PlaneFigure.Proofs.Draft.Verdict
import PlaneFigure.Proofs.Geometry.Intersection

/-!
What holds of constructed points by their construction. Where the points that they are constructed
from have real coordinates, constructed points are where the construction puts them; and constraints
that hold of points in their positions have residuals that are zero.
-/

namespace PlaneFigure

open Exact PlaneFigure.Geometry

namespace Draft

section Positions

variable {R : Type} [Number R] [Uniform R] {x : Addition (Formula R) R} {d : SymbolicDraft R}
  {name : String} {ρ : Nat → R}

/-- A constructed point is where its construction puts it. -/
theorem CarriedOut.construct {method : String} {kind : ConstructionKind} {points : List (Point R)}
    {k : Construction R} (operands : List String)
    (h : CarriedOut (.compute name ⟨method, operands.map .point⟩) x d)
    (hkind : ConstructionKind.ofId method = .ok kind) (hne : kind ≠ .intersection)
    (hpoints : List.Forall₂ (fun name p => (d.positions ρ).get? name = some p) operands points)
    (hk : kind.construction? points = some k) :
    (d.positions ρ).get? name = some (calculate k.point) := by
  obtain ⟨t, a, hcheck, hearlier, -, -, hreads⟩ := h.reads ρ
  obtain ⟨hnew, points', k', hpoints', hk', rfl⟩ :=
    PointTable.check_construction hkind hne hcheck
  -- the points are found where they were when the instruction was carried out
  obtain rfl : points' = points := PointTable.get?_rightUnique.forall₂
    (hpoints'.imp fun _ _ => PointTable.get?_of_prefix hearlier) hpoints
  obtain rfl : k' = k := Option.some.inj (hk'.symm.trans hk)
  obtain ⟨-, happend⟩ := hreads nofun
  exact PointTable.get?_of_prefix happend (PointTable.get?_append_new hnew)

/-- The intersection of two lines is where they meet. -/
theorem CarriedOut.intersect {l m : LineSpec} {l' m' : Line R}
    (h : CarriedOut (.compute name ⟨"interLL", [.line l, .line m]⟩) x d)
    (hl : (d.positions ρ).line l = .ok l') (hm : (d.positions ρ).line m = .ok m') :
    (d.positions ρ).get? name =
      some (calculate ((calculate l'.points).intersection (calculate m'.points))) := by
  obtain ⟨t, a, hcheck, hearlier, -, -, hreads⟩ := h.reads ρ
  obtain ⟨hnew, l₁, m₁, hl₁, hm₁, rfl⟩ := PointTable.check_intersection hcheck
  cases (PointTable.line_of_prefix hearlier hl₁).symm.trans hl
  cases (PointTable.line_of_prefix hearlier hm₁).symm.trans hm
  obtain ⟨-, happend⟩ := hreads nofun
  exact PointTable.get?_of_prefix happend (PointTable.get?_append_new hnew)

end Positions

variable {d : SymbolicDraft Exact} {ρ : Nat → ℝ}

/-- Where the point of a name is for these values of the variables, if it has real coordinates. -/
def Locates (ρ : Nat → ℝ) (d : SymbolicDraft Exact) (name : String) (p : Point ℝ) : Prop :=
  (d.positions fun i => real (ρ i)).get? name = some p.exact

/-- The constraint can be required, and its residuals are zero for these values of the variables,
whatever instructions follow. -/
def Meets (ρ : Nat → ℝ) (d : SymbolicDraft Exact) (pred : String) (points : List String) : Prop :=
  ∃ x d', process (.assert ⟨pred, points, false⟩) d = (.ok x, d') ∧ x.losses ≠ [] ∧
    ∀ is d'', processAll is d' = .ok d'' →
      ∀ e ∈ x.losses, d''.canvas.memory.value (fun i => real (ρ i)) e.2.residual = real 0

/-- A constraint that passes its checks is required. -/
theorem process_assert {c : Constraint} {label : String} {r : Relation Exact} {σ : Nat → Exact}
    (hc : (d.positions σ).constraint c = .ok (.relate label r)) :
    ∃ x d', process (.assert c) d = (.ok x, d') ∧ x.losses ≠ [] := by
  -- no check reads a number, so what passes with the positions of the points passes with formulas
  obtain ⟨r', hcheck⟩ : ∃ r', d.points.check (.assert c) = .ok (.relate label r') := by
    have hmap := (d.points.check_map (d.canvas.memory.value σ) (.assert c)).symm.trans hc
    cases hcheck : d.points.check (.assert c) with
    | error e =>
        rw [hcheck] at hmap
        cases hmap
    | ok a =>
        rw [hcheck] at hmap
        cases a <;> cases hmap
        exact ⟨_, rfl⟩
  have hrun : process (.assert c) d =
      (.ok { losses := (r'.losses label d.canvas.memory).1 },
        { d.add { losses := (r'.losses label d.canvas.memory).1 } with
          canvas.memory := (r'.losses label d.canvas.memory).2 }) := by
    unfold process
    rw [hcheck]
    rfl
  exact ⟨_, _, hrun, r'.losses_ne_nil label d.canvas.memory⟩

theorem Sound.meets (h : d.Sound) {pred : String} {names : List String} {points : List (Point ℝ)}
    (hfound : List.Forall₂ (d.Locates ρ) names points) (hm : Meaning pred points) :
    d.Meets ρ pred names := by
  have hholds : (⟨pred, names, false⟩ : Constraint).HoldsIn (d.positions fun i => real (ρ i)) :=
    ⟨points, hfound, hm⟩
  obtain ⟨label, r, hr⟩ := hholds.relate rfl
  obtain ⟨x, d', hrun, hne⟩ := process_assert hr
  refine ⟨x, d', hrun, hne, fun is d'' his e he => ?_⟩
  obtain ⟨a, c, hcheck, -, rfl⟩ := Draft.process_ok hrun
  obtain ⟨hsound, hle, -⟩ := h.process_ok hrun hcheck
  obtain ⟨-, hle', -⟩ := hsound.processAll_ok his
  obtain ⟨label, r, hr, -, -, hvalues⟩ :=
    CarriedOut.assert ⟨d, _, h, hrun, hle'⟩ fun i => real (ρ i)
  -- in the later draft, the points have the positions that they had
  have hholds' := hholds.of_prefix (h.positions_prefix (hle.trans hle'))
  exact hholds'.values_eq_zero hr _ (hvalues ▸ List.mem_map_of_mem he)

/-! ### Centers and midpoints -/

section Points

variable {A B C X : String} {a b c p q : Point ℝ} {x : Addition (Formula Exact) Exact}

theorem Sound.orthocenter_meets (h : d.Sound) (ha : d.Locates ρ A a) (hb : d.Locates ρ B b)
    (hc : d.Locates ρ C c) (harea : Point.doubleArea a b c ≠ 0)
    (hx : CarriedOut (.compute X ⟨"orthocenter", [.point A, .point B, .point C]⟩) x d) :
    d.Meets ρ "perp" [A, X, B, C] ∧ d.Meets ρ "perp" [B, X, C, A] ∧
      d.Meets ρ "perp" [C, X, A, B] := by
  have hX : d.Locates ρ X (Point.orthocenter a b c) := by
    rw [Locates, ← calculate_orthocenter_exact harea]
    exact hx.construct [A, B, C] rfl nofun (.cons ha (.cons hb (.cons hc .nil))) rfl
  have hrotate := (Point.doubleArea_rotate a b c).trans_ne harea
  refine ⟨h.meets (.cons ha (.cons hX (.cons hb (.cons hc .nil)))) ?_,
    h.meets (.cons hb (.cons hX (.cons hc (.cons ha .nil)))) ?_,
    h.meets (.cons hc (.cons hX (.cons ha (.cons hb .nil)))) ?_⟩
  · exact (Point.inner_toPlane ..).trans (Point.dot_orthocenter harea)
  · rw [← Point.orthocenter_rotate]
    exact (Point.inner_toPlane ..).trans (Point.dot_orthocenter hrotate)
  · rw [← Point.orthocenter_rotate, ← Point.orthocenter_rotate]
    exact (Point.inner_toPlane ..).trans
      (Point.dot_orthocenter ((Point.doubleArea_rotate b c a).trans_ne hrotate))

theorem Sound.circumcenter_meets (h : d.Sound) (ha : d.Locates ρ A a) (hb : d.Locates ρ B b)
    (hc : d.Locates ρ C c) (harea : Point.doubleArea a b c ≠ 0)
    (hx : CarriedOut (.compute X ⟨"circumcenter", [.point A, .point B, .point C]⟩) x d) :
    d.Meets ρ "cong" [X, A, X, B] ∧ d.Meets ρ "cong" [X, B, X, C] ∧
      d.Meets ρ "onCirc" [B, X, A] ∧ d.Meets ρ "onCirc" [C, X, A] := by
  have hX : d.Locates ρ X (Point.circumcenter a b c) := by
    rw [Locates, ← calculate_circumcenter_exact harea]
    exact hx.construct [A, B, C] rfl nofun (.cons ha (.cons hb (.cons hc .nil))) rfl
  obtain ⟨hab, hac⟩ := (Point.eq_circumcenter_iff harea).mp rfl
  have hbc := hab.symm.trans hac
  have hba := (Point.quadrance_comm ..).trans hab.symm
  have hca := (Point.quadrance_comm ..).trans hac.symm
  exact ⟨h.meets (.cons hX (.cons ha (.cons hX (.cons hb .nil)))) (Point.dist_eq_dist_iff .. |>.mpr hab),
    h.meets (.cons hX (.cons hb (.cons hX (.cons hc .nil)))) (Point.dist_eq_dist_iff .. |>.mpr hbc),
    h.meets (.cons hb (.cons hX (.cons ha .nil))) (Point.dist_eq_dist_iff .. |>.mpr hba),
    h.meets (.cons hc (.cons hX (.cons ha .nil))) (Point.dist_eq_dist_iff .. |>.mpr hca)⟩

theorem Sound.midpoint_meets (h : d.Sound) (ha : d.Locates ρ A a) (hb : d.Locates ρ B b)
    (hx : CarriedOut (.compute X ⟨"midp", [.point A, .point B]⟩) x d) :
    d.Meets ρ "midp" [X, A, B] := by
  have hX : d.Locates ρ X ⟨(a.x + b.x) / 2, (a.y + b.y) / 2⟩ := by
    rw [Locates, ← calculate_midpoint_exact]
    exact hx.construct [A, B] rfl nofun (.cons ha (.cons hb .nil)) rfl
  refine h.meets (.cons hX (.cons ha (.cons hb .nil))) (sqrt_midpoint_eq_zero.mp ?_)
  rw [Real.sqrt_eq_zero (Point.quadrance_nonneg ..), Point.quadrance_eq_zero]

theorem Sound.reflection_meets (h : d.Sound) (hp : d.Locates ρ X p) (ha : d.Locates ρ A a)
    (hx : CarriedOut (.compute B ⟨"midpFrom", [.point X, .point A]⟩) x d) :
    d.Meets ρ "midp" [X, A, B] := by
  have hB : d.Locates ρ B ⟨a.x + (p.x - a.x) * 2, a.y + (p.y - a.y) * 2⟩ := by
    rw [Locates, hx.construct [X, A] rfl nofun (.cons hp (.cons ha .nil)) rfl]
    change some (calculate (reflect p.exact a.exact)) = _
    rw [calculate_reflect, literal_two]
    rfl
  refine h.meets (.cons hp (.cons ha (.cons hB .nil))) (sqrt_midpoint_eq_zero.mp ?_)
  rw [Real.sqrt_eq_zero (Point.quadrance_nonneg ..), Point.quadrance_eq_zero]
  obtain ⟨px, py⟩ := p
  congr 1 <;> ring

/-! ### Intersections -/

theorem Sound.intersection_meets {D : String} (h : d.Sound) (ha : d.Locates ρ A a)
    (hb : d.Locates ρ B b) (hp : d.Locates ρ C p) (hq : d.Locates ρ D q)
    (hcross : Point.cross b a q p ≠ 0)
    (hx : CarriedOut (.compute X ⟨"interLL",
      [.line ⟨"connecting", [A, B]⟩, .line ⟨"connecting", [C, D]⟩]⟩) x d) :
    d.Meets ρ "coll" [X, A, B] ∧ d.Meets ρ "coll" [X, C, D] := by
  have hl : (d.positions fun i => real (ρ i)).line ⟨"connecting", [A, B]⟩ =
      .ok (.connecting a.exact b.exact) :=
    PointTable.line_eq_ok.mpr ⟨_, _, rfl, rfl, .cons ha (.cons hb .nil), rfl⟩
  have hm : (d.positions fun i => real (ρ i)).line ⟨"connecting", [C, D]⟩ =
      .ok (.connecting p.exact q.exact) :=
    PointTable.line_eq_ok.mpr ⟨_, _, rfl, rfl, .cons hp (.cons hq .nil), rfl⟩
  have hX : d.Locates ρ X (Point.meet a b p q) := by
    rw [Locates, hx.intersect hl hm, calculate_connecting, calculate_connecting,
      calculate_intersection_exact hcross]
  exact ⟨h.meets (.cons hX (.cons ha (.cons hb .nil)))
      ((Point.collinear_iff ..).mpr (Point.cross_meet_left a b p q)),
    h.meets (.cons hX (.cons hp (.cons hq .nil)))
      ((Point.collinear_iff ..).mpr (Point.cross_meet_right hcross))⟩

theorem CarriedOut.altitudes (ha : d.Locates ρ A a) (hb : d.Locates ρ B b)
    (hc : d.Locates ρ C c) (harea : Point.doubleArea a b c ≠ 0)
    (hx : CarriedOut (.compute X ⟨"interLL",
      [.line ⟨"perpAt", [A, B, C]⟩, .line ⟨"perpAt", [B, C, A]⟩]⟩) x d) :
    d.Locates ρ X (Point.orthocenter a b c) := by
  have hl : (d.positions fun i => real (ρ i)).line ⟨"perpAt", [A, B, C]⟩ =
      .ok (.perpendicular a.exact b.exact c.exact) :=
    PointTable.line_eq_ok.mpr ⟨_, _, rfl, rfl, .cons ha (.cons hb (.cons hc .nil)), rfl⟩
  have hm : (d.positions fun i => real (ρ i)).line ⟨"perpAt", [B, C, A]⟩ =
      .ok (.perpendicular b.exact c.exact a.exact) :=
    PointTable.line_eq_ok.mpr ⟨_, _, rfl, rfl, .cons hb (.cons hc (.cons ha .nil)), rfl⟩
  rw [Locates, hx.intersect hl hm, calculate_perpendicular_exact, calculate_perpendicular_exact,
    calculate_intersection_exact (Point.cross_upright harea), Point.meet_upright harea]

end Points

theorem check_triangle :
    triangle.points.check (.compute "X" ⟨"interLL",
        [.line ⟨"connecting", ["A", "B"]⟩, .line ⟨"connecting", ["A", "C"]⟩]⟩) =
      .ok (.intersect "X" (⟨"connecting", ["A", "B"]⟩, .connecting ⟨⟨0⟩, ⟨1⟩⟩ ⟨⟨2⟩, ⟨3⟩⟩)
        (⟨"connecting", ["A", "C"]⟩, .connecting ⟨⟨0⟩, ⟨1⟩⟩ ⟨⟨4⟩, ⟨5⟩⟩)) :=
  rfl

theorem crosses_triangle :
    crosses triangle.settings.degeneracy triangle.canvas
      (.connecting (S := Formula Exact) ⟨⟨0⟩, ⟨1⟩⟩ ⟨⟨2⟩, ⟨3⟩⟩)
      (.connecting ⟨⟨0⟩, ⟨1⟩⟩ ⟨⟨4⟩, ⟨5⟩⟩) = true := by
  rw [triangle_sound.crosses_eq triangle.settings.degeneracy check_triangle]
  change Number.lt (1e-12 * (Number.hypotenuse (real (1 - 0)) (real (0 - 0)) *
    Number.hypotenuse (real (0 - 0)) (real (1 - 0))))
      (real |(1 - 0) * (1 - 0) - (0 - 0) * (0 - 0)|) = true
  norm_num [Number.hypotenuse]

/-- Constructed points have the properties that define them, for all values of the variables for
which the points that they are constructed from have real coordinates, form a triangle where one is
needed, and lines to be intersected are not parallel. -/
theorem constructed_meets (draws : Draws Exact) (settings : DraftSettings Exact)
    (is : List Instruction) (d : SymbolicDraft Exact) (ρ : Nat → ℝ)
    (hd : processAll is ⟨{ memory := Graph.empty, draws }, settings, {}, {}⟩ = .ok d) :
    (∀ A B C a b c, d.Locates ρ A a → d.Locates ρ B b → d.Locates ρ C c →
      Point.doubleArea a b c ≠ 0 →
      (∀ H, .compute H ⟨"orthocenter", [.point A, .point B, .point C]⟩ ∈ is →
        d.Meets ρ "perp" [A, H, B, C] ∧ d.Meets ρ "perp" [B, H, C, A] ∧
          d.Meets ρ "perp" [C, H, A, B]) ∧
      (∀ O, .compute O ⟨"circumcenter", [.point A, .point B, .point C]⟩ ∈ is →
        d.Meets ρ "cong" [O, A, O, B] ∧ d.Meets ρ "cong" [O, B, O, C] ∧
          d.Meets ρ "onCirc" [B, O, A] ∧ d.Meets ρ "onCirc" [C, O, A]) ∧
      ∀ X, .compute X ⟨"interLL",
          [.line ⟨"perpAt", [A, B, C]⟩, .line ⟨"perpAt", [B, C, A]⟩]⟩ ∈ is →
        ∃ p : Point ℝ, d.Locates ρ X p ∧
          calculate (Geometry.orthocenter a.exact b.exact c.exact) = p.exact) ∧
    (∀ A B a b, d.Locates ρ A a → d.Locates ρ B b →
      (∀ M, .compute M ⟨"midp", [.point A, .point B]⟩ ∈ is → d.Meets ρ "midp" [M, A, B]) ∧
      ∀ X, .compute X ⟨"midpFrom", [.point A, .point B]⟩ ∈ is → d.Meets ρ "midp" [A, B, X]) ∧
    ∀ A B C D a b p q, d.Locates ρ A a → d.Locates ρ B b → d.Locates ρ C p → d.Locates ρ D q →
      Point.cross b a q p ≠ 0 → ∀ X, .compute X ⟨"interLL",
          [.line ⟨"connecting", [A, B]⟩, .line ⟨"connecting", [C, D]⟩]⟩ ∈ is →
        d.Meets ρ "coll" [X, A, B] ∧ d.Meets ρ "coll" [X, C, D] := by
  obtain ⟨hsound, -, hcarried, -⟩ := (Sound.start draws settings).processAll_ok hd
  refine ⟨fun A B C a b c ha hb hc harea => ⟨fun H hmem => ?_, fun O hmem => ?_, fun X hmem => ?_⟩,
    fun A B a b ha hb => ⟨fun M hmem => ?_, fun X hmem => ?_⟩,
    fun A B C D a b p q ha hb hp hq hcross X hmem => ?_⟩ <;> obtain ⟨x, hx⟩ := hcarried _ hmem
  · exact hsound.orthocenter_meets ha hb hc harea hx
  · exact hsound.circumcenter_meets ha hb hc harea hx
  · exact ⟨_, hx.altitudes ha hb hc harea, calculate_orthocenter_exact harea⟩
  · exact hsound.midpoint_meets ha hb hx
  · exact hsound.reflection_meets ha hb hx
  · exact hsound.intersection_meets ha hb hp hq hcross hx

/-- A corner of a triangle as the intersection of two sides, and then the orthocenter. -/
theorem constructed_meets_triangle :
    let is : List Instruction := [.sample ["A", "B", "C"] "uniform" [],
      .compute "X" ⟨"interLL",
        [.line ⟨"connecting", ["A", "B"]⟩, .line ⟨"connecting", ["A", "C"]⟩]⟩,
      .compute "H" ⟨"orthocenter", [.point "A", .point "B", .point "C"]⟩]
    let ρ : Nat → ℝ := fun i => [0, 0, 3, 0, 1, 2].getD i 0
    ∃ d, processAll is ⟨{ memory := Graph.empty, draws := corners }, .standard, {}, {}⟩ = .ok d ∧
      d.Meets ρ "coll" ["X", "A", "B"] ∧ d.Meets ρ "perp" ["A", "H", "B", "C"] := by
  intro is ρ
  obtain ⟨x, d₁, p, hX, hp⟩ := process_intersect check_triangle crosses_triangle
  have hcheck : d₁.points.check
      (.compute "H" ⟨"orthocenter", [.point "A", .point "B", .point "C"]⟩) =
        .ok (.construct "H" (.orthocenter ⟨⟨0⟩, ⟨1⟩⟩ ⟨⟨2⟩, ⟨3⟩⟩ ⟨⟨4⟩, ⟨5⟩⟩)) := by
    rw [hp]
    rfl
  obtain ⟨y, d, hH⟩ := process_construct hcheck
  have hrun : processAll is.tail triangle = .ok d := by
    simp only [is, List.tail_cons, processAll, hX, hH]
    rfl
  have hd := (processAll_triangle is.tail).trans hrun
  obtain ⟨-, hle, -⟩ := triangle_sound.processAll_ok hrun
  have hlocates : ∀ {name p}, triangle.Locates ρ name p → d.Locates ρ name p :=
    PointTable.get?_of_prefix (triangle_sound.positions_prefix hle)
  have ha : d.Locates ρ "A" ⟨0, 0⟩ := hlocates rfl
  have hb : d.Locates ρ "B" ⟨3, 0⟩ := hlocates rfl
  have hc : d.Locates ρ "C" ⟨1, 2⟩ := hlocates rfl
  have hcross : Point.cross ⟨3, 0⟩ ⟨0, 0⟩ ⟨1, 2⟩ ⟨0, 0⟩ ≠ 0 := by norm_num [Point.cross]
  obtain ⟨hcenters, -, hlines⟩ := constructed_meets corners .standard is d ρ hd
  obtain ⟨hcoll, -⟩ := hlines "A" "B" "A" "C" _ _ _ _ ha hb ha hc hcross "X" (by simp [is])
  obtain ⟨hperp, -⟩ := (hcenters "A" "B" "C" _ _ _ ha hb hc hcross).1 "H" (by simp [is])
  exact ⟨d, hd, hcoll, hperp⟩

end Draft

end PlaneFigure
