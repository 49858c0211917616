import PlaneFigure.Proofs.Draft.Outline
import PlaneFigure.Proofs.Placement.Granted
import PlaneFigure.Proofs.Placement.Growth

/-!
The size of whole polygons. All angles and lengths are sampled before the first vertex is recorded,
so the walk starts from formulas of variables, and what it records grows exponentially with the
number of vertices.
-/

namespace PlaneFigure

namespace Placement

/-- The sampled scalars that a polygon is made from. -/
structure PolygonShape (S : Type) where
  firstAngle : S
  angles : List S
  scales : List S

section Parts

variable {S R μ : Type} [Number R] [Uniform R] [Scalar S R μ]

/-- The turns of the walk. -/
def PolygonShape.turns (s : PolygonShape S) : List (Turn S) := s.angles.zipWith Turn.mk s.scales

/-- The variables of a polygon with `n` vertices. -/
def sampledShape (n : Nat) : Canvas.Attempt R μ (PolygonShape S) := do
  let others := List.range' 1 (n - 1)
  let firstAngle ← sampledAngle n 0
  let angles ← others.mapM (sampledAngle n)
  let _ ← sampledScale (S := S) 0
  let scales ← others.mapM sampledScale
  return ⟨firstAngle, angles, scales⟩

/-- The vertices and the losses of a polygon. -/
def polygonOf (names : List String) (s : PolygonShape S) : StateM μ (Addition S R) := do
  let a ← gaugeStart
  let b ← gaugeEnd
  let w ← walk a b s.turns
  return { points := names.zip w.vertices
           losses := ← closingLosses names.length s.firstAngle s.angles a b w }

theorem placePolygon_eq (names : List String) :
    (placePolygon names : Canvas.Attempt R μ (Addition S R)) =
      sampledShape names.length >>= fun s => liftM (polygonOf names s : StateM μ (Addition S R)) := by
  simp only [placePolygon, sampledShape, bind_assoc, pure_bind]
  rfl

end Parts

end Placement

open Placement

/-! ### Sampling -/

section Instances

variable {R α β : Type} [Mirror R α β] {w : World R}

instance : Mirror R (PolygonShape α) (PolygonShape β) where
  Stands w s t := Stands w s.firstAngle t.firstAngle ∧ Stands w s.angles t.angles ∧
    Stands w s.scales t.scales
  mono hle hs := ⟨hs.1.mono hle, hs.2.1.mono hle, hs.2.2.mono hle⟩

instance {x : α} {x' : β} {l m : List α} {l' m' : List β} [hx : Stands w x x'] [hl : Stands w l l']
    [hm : Stands w m m'] : Stands w (PolygonShape.mk x l m) (PolygonShape.mk x' l' m') :=
  ⟨hx, hl, hm⟩

end Instances

variable {R : Type} [Number R]

section Sampling

variable [Uniform R]

theorem Attempts.sampledShape {β : Type} [Mirror R (Formula R) β] [Scalar β R Unit]
    [ScalarMirror R β] {A : Basis R} {w : World R} {n : Nat} :
    Attempts A w
      (Placement.sampledShape n : Canvas.Attempt R (Graph R) (PolygonShape (Formula R)))
      (Placement.sampledShape n : Canvas.Attempt R Unit (PolygonShape β)) :=
  .bind .sampledAngle <| .bind (.mapM (fun _ => .sampledAngle) _) <|
    .bind .sampledScale <| .bind (.mapM (fun _ => .sampledScale) _) .pure

open Canvas.Attempt (Leaves)

/-- What is drawn is a variable. -/
theorem Canvas.sample_live (name : String) (r : Range R) :
    Leaves [name] (fun z : Content R => z.live) (Canvas.sample (μ := Unit) name r) := by
  intro c z c' h
  refine ⟨?_, (Canvas.sample_leaves name r c z c' h).2⟩
  cases create_of_sample h
  exact trivial

namespace Placement

theorem sampledScale_live (i : Nat) :
    Leaves ["polygon_scale_z_" ++ toString i] (·.live)
      (sampledScale i : Canvas.Attempt R Unit (Content R)) :=
  (Canvas.sample_live _ _).bind fun _ hz => .lift fun _ => .inl (.inl hz)

theorem sampledShape_live (n : Nat) :
    ∃ vars, Leaves vars (fun s => ∀ z ∈ s.scales, z.live)
      (sampledShape n : Canvas.Attempt R Unit (PolygonShape (Content R))) := by
  refine ⟨_, (sampledAngle_leaves _ _).bind fun _ _ =>
    (Leaves.mapM (sampledAngle_leaves _) _).bind fun _ _ => (sampledScale_leaves _).bind fun _ _ =>
    (Leaves.mapM sampledScale_live _).bind fun scales hscales => .pure ?_⟩
  generalize List.range' 1 (n - 1) = others at hscales
  induction hscales with
  | nil => exact nofun
  | cons hz _ ih => exact List.forall_mem_cons.mpr ⟨hz, ih⟩

end Placement

end Sampling

namespace Placement

/-- The scalars are recorded, and those for lengths reach variables. -/
structure PolygonShape.Recorded (g : Graph R) (s : PolygonShape (Formula R)) : Prop where
  firstAngle : s.firstAngle.root < g.size
  angles : ∀ z ∈ s.angles, z.root < g.size
  turns : ∀ t ∈ s.turns, Turning g t

variable {g h : Graph R} {s : PolygonShape (Formula R)} {names : List String}
  {x : Addition (Formula R) R}

omit [Number R] in
theorem turning_of_stands {w : World R} {angles scales : List (Formula R)}
    {angles' scales' : List (Content R)} (hangles : List.Forall₂ (Stands w) angles angles')
    (hscales : List.Forall₂ (Stands w) scales scales') (hlive : ∀ z ∈ scales', z.live) :
    ∀ t ∈ angles.zipWith Turn.mk scales, Turning w.graph t := by
  induction hangles generalizing scales scales' with
  | nil => exact nofun
  | cons hangle _ ih =>
      cases hscales with
      | nil => exact nofun
      | cons hscale hscales =>
          obtain ⟨hz, hlive⟩ := List.forall_mem_cons.mp hlive
          refine List.forall_mem_cons.mpr ⟨⟨hangle.out.1, hscale.out.1, hscale.out.2.1 hz⟩, ?_⟩
          exact ih hscales hlive

theorem sampledShape_recorded [Uniform R] {n : Nat} {c c' : Canvas R (Graph R)}
    (hc : c.memory.WellFormed) (h : (sampledShape n).run c = (.ok s, c')) :
    c'.memory.WellFormed ∧ s.Recorded c'.memory := by
  let d : Canvas R Unit := ⟨(), c.vars, c.draws⟩
  let w : World R := ⟨c.memory, hc, c.admitted ∩ Set.univ⟩
  have hsim : Attempts (c.basis Set.univ) w (sampledShape n) (sampledShape n) :=
    Attempts.sampledShape (β := Content R)
  obtain ⟨w', -, hcanvas, hstands⟩ := hsim c d (.start Set.univ c hc)
  rcases hd : (sampledShape n : Canvas.Attempt R Unit (PolygonShape (Content R))).run d
    with ⟨result, d'⟩
  rw [h, hd] at hcanvas hstands
  obtain ⟨e, he, -⟩ | ⟨_, s', hok, rfl, hs⟩ := hstands.except_cases
  · cases he
  cases hok
  obtain ⟨vars, hleaves⟩ := sampledShape_live (R := R) n
  obtain ⟨hlive, -⟩ := hleaves d s' d' hd
  obtain ⟨hfirst, hangles, hscales⟩ := hs.out
  have hwf := w'.wellFormed
  rw [hcanvas.graph] at hwf
  have hturns := turning_of_stands hangles.out hscales.out hlive
  have hfirst := hfirst.out.1
  have hall := hangles.forall_mem (P := fun z => z.root < w'.graph.size) fun _ _ hz => hz.out.1
  rw [hcanvas.graph] at hturns hfirst hall
  exact ⟨hwf, hfirst, hall, hturns⟩

theorem const_drawn {y z : R} {p : Point (Formula R)} (hg : g.WellFormed)
    (hp : Point.const y z g = (p, h)) : Drawn g p h := by
  let w : World R := ⟨g, hg, Set.univ⟩
  have hsim : Simulates (OnGraph w.basis) w (Point.const y z)
    (Point.const (S := Content R) y z) := .point_const
  obtain ⟨hle, hwf, hstands⟩ := hsim.recorded hp
  exact ⟨hle, hwf, inside_of_stands hstands⟩

/-- The losses are recorded on top of the vertices. -/
theorem closingLosses_grown {a b : Point (Formula R)} {v : Walk (Formula R)} {n m : Nat}
    {g₀ : Graph R} {losses : List (String × Loss (Formula R) R)} (hs : s.Recorded g)
    (ha : Inside g a) (hb : Inside g b) (hv : Walked m g₀ g v)
    (hl : closingLosses n s.firstAngle s.angles a b v g = (losses, h)) :
    g ≤ h ∧ h.WellFormed := by
  let w : World R := ⟨g, hv.wellFormed, Set.univ⟩
  let q : Point (Content R) := ⟨.unknown, .unknown⟩
  have hpoint : ∀ {p}, Inside g p → Stands w p q := fun hp =>
    ⟨World.stands_unknown hp.1, World.stands_unknown hp.2⟩
  let v' : Walk (Content R) := ⟨v.vertices.map fun _ => q, q, q⟩
  have : Stands w s.firstAngle (Content.unknown : Content R) := World.stands_unknown hs.firstAngle
  have : Stands w s.angles (s.angles.map fun _ => (Content.unknown : Content R)) :=
    .of_forall_mem fun z hz => World.stands_unknown (hs.angles z hz)
  have := hpoint ha
  have := hpoint hb
  have : Stands w v v' :=
    ⟨.of_forall_mem fun p hp => hpoint (hv.inside p hp), hpoint hv.lastStart, hpoint hv.lastEnd⟩
  have hsim : Simulates (OnGraph w.basis) w (closingLosses n s.firstAngle s.angles a b v)
      (closingLosses n Content.unknown (s.angles.map fun _ => Content.unknown) q q v') :=
    .closingLosses
  obtain ⟨hle, hwf, -⟩ := hsim.recorded hl
  exact ⟨hle, hwf⟩

omit [Number R] in
theorem PolygonShape.Recorded.of_le (hgh : g ≤ h) (hs : s.Recorded g) : s.Recorded h :=
  ⟨Nat.lt_of_lt_of_le hs.firstAngle (Graph.size_le_of_le hgh),
    fun z hz => Nat.lt_of_lt_of_le (hs.angles z hz) (Graph.size_le_of_le hgh),
    fun t ht => (hs.turns t ht).of_le hgh⟩

/-- Vertex `k + 1` of a polygon. The second vertex is fixed. -/
theorem polygonOf_heavy (hg : g.WellFormed) (hs : s.Recorded g)
    (hx : polygonOf names s g = (x, h)) {k : Nat} {name : String} {p : Point (Formula R)}
    (hp : x.points[k + 1]? = some (name, p)) : h.WellFormed ∧ Heavy h p (2 ^ k - 1) := by
  rcases ha : (gaugeStart g : Point (Formula R) × Graph R) with ⟨a, g₁⟩
  rcases hb : (gaugeEnd g₁ : Point (Formula R) × Graph R) with ⟨b, g₂⟩
  rcases hv : (walk a b s.turns g₂ : Walk (Formula R) × Graph R) with ⟨v, g₃⟩
  rcases hl : (closingLosses names.length s.firstAngle s.angles a b v g₃ :
    List (String × Loss (Formula R) R) × Graph R) with ⟨losses, g₄⟩
  have hrun : polygonOf names s g = (⟨names.zip v.vertices, losses⟩, g₄) := by
    simp only [polygonOf, bind, StateT.bind, ha, hb, hv, hl]
    rfl
  rw [hrun] at hx
  cases hx
  have ha := const_drawn hg ha
  have hb := const_drawn ha.wellFormed hb
  have ha₂ := ha.inside.of_le hb.le
  have hs₂ := hs.of_le (ha.le.trans hb.le)
  have hwalked := walk_walked (m := 0) hb.wellFormed ha₂ hb.inside hs₂.turns (heavy_zero ..) hv
  obtain ⟨hle, hwf⟩ := closingLosses_grown (hs₂.of_le hwalked.le) (ha₂.of_le hwalked.le)
    (hb.inside.of_le hwalked.le) hwalked hl
  obtain ⟨-, hvertex⟩ := List.getElem?_zip_eq_some.mp hp
  have hheavy := (hwalked.heavy k p hvertex).of_le hle
  rw [Nat.zero_add] at hheavy
  exact ⟨hwf, hheavy⟩

variable [Uniform R]

theorem placePolygon_heavy {c c' : Canvas R (Graph R)} (hc : c.memory.WellFormed)
    (hx : (placePolygon names).run c = (.ok x, c')) {k : Nat} {name : String}
    {p : Point (Formula R)} (hp : x.points[k + 1]? = some (name, p)) :
    c'.memory.WellFormed ∧ Heavy c'.memory p (2 ^ k - 1) := by
  rw [placePolygon_eq] at hx
  obtain ⟨s, c₁, hs, hx⟩ := Canvas.Attempt.run_bind_eq_ok hx
  obtain ⟨hwf, hrecorded⟩ := sampledShape_recorded hc hs
  rcases hadd : (polygonOf names s c₁.memory : Addition (Formula R) R × Graph R) with ⟨y, h⟩
  rw [Canvas.Attempt.run_lift, hadd] at hx
  cases hx
  exact polygonOf_heavy hwf hrecorded hadd hp

/-- Vertex `k + 1` has coordinates of at least `2 ^ k - 1` nodes. -/
theorem placePolygon_nodeCount {c c' : Canvas R (Graph R)} (hc : c.memory.WellFormed)
    (hx : (placePolygon names).run c = (.ok x, c')) {k : Nat} {name : String}
    {p : Point (Formula R)} (hp : x.points[k + 1]? = some (name, p)) :
    2 ^ k ≤ c'.memory.nodeCount p.x + 1 ∧ 2 ^ k ≤ c'.memory.nodeCount p.y + 1 := by
  obtain ⟨hwf, s, u, hs, hu, -, hsx, huy⟩ := placePolygon_heavy hc hx hp
  have hcount := Graph.card_le_nodeCount hwf fun j hj => (hsx j hj).1
  have hcount' := Graph.card_le_nodeCount hwf fun j hj => (huy j hj).1
  omega

theorem thousandfold_lt_two_pow {k : Nat} (hk : 14 ≤ k) : 1000 * (k + 2) + 1 < 2 ^ k := by
  induction k, hk using Nat.le_induction with
  | base => decide
  | succ k hk ih => omega

/-- What doubles exceeds what grows evenly, for the last of sixteen vertices or more. -/
theorem placePolygon_last {c c' : Canvas R (Graph R)} (hc : c.memory.WellFormed)
    (hx : (placePolygon names).run c = (.ok x, c')) (hnames : 16 ≤ names.length) {name : String}
    {p : Point (Formula R)} (hp : x.points.getLast? = some (name, p)) :
    1000 * names.length < c'.memory.nodeCount p.x ∧
      1000 * names.length < c'.memory.nodeCount p.y := by
  obtain ⟨⟨hpoints, -⟩, -⟩ := placePolygon_leaves names c x c' hx
  have hlength : x.points.length = names.length :=
    (List.length_map ..).symm.trans (congrArg List.length hpoints)
  obtain ⟨k, hk⟩ : ∃ k, names.length = k + 2 := ⟨names.length - 2, by omega⟩
  rw [List.getLast?_eq_getElem?, hlength, hk] at hp
  obtain ⟨hcount, hcount'⟩ := placePolygon_nodeCount hc hx hp
  have := thousandfold_lt_two_pow (k := k) (by omega)
  omega

omit [Number R] [Uniform R] in
/-- The point of a name. -/
theorem exists_point {i : Nat} {name : String} (h : x.pointNames[i]? = some name) :
    ∃ p, x.points[i]? = some (name, p) := by
  rw [Addition.pointNames, List.getElem?_map] at h
  obtain ⟨⟨_, p⟩, hp, rfl⟩ := Option.map_eq_some_iff.mp h
  exact ⟨p, hp⟩

/-- A polygon with at least three vertices is placed on any canvas, and its coordinates double in size
from vertex to vertex: those of vertex `k + 1` have at least `2 ^ k - 1` nodes. From sixteen vertices
on, those of the last vertex have more than a thousand nodes for each vertex of the polygon. -/
theorem polygon_nodeCount {names : List String} (hnames : 3 ≤ names.length)
    {c : Canvas Float (Graph Float)} (hc : c.memory.WellFormed) :
    ofPolygon names = .ok (.polygon names) ∧
    ∃ x c', (polygon names).place.run c = (.ok x, c') ∧ x.pointNames = names ∧
      (∀ (k : Nat) (name : String) (p : Point (Formula Float)),
        x.points[k + 1]? = some (name, p) →
        2 ^ k ≤ c'.memory.nodeCount p.x + 1 ∧ 2 ^ k ≤ c'.memory.nodeCount p.y + 1) ∧
      (16 ≤ names.length → ∀ (name : String) (p : Point (Formula Float)),
        x.points.getLast? = some (name, p) →
        1000 * names.length < c'.memory.nodeCount p.x ∧
          1000 * names.length < c'.memory.nodeCount p.y) := by
  refine ⟨if_neg (Nat.not_lt.mpr hnames), ?_⟩
  obtain ⟨x, c', hx⟩ := placePolygon_granted (S := Formula Float) names c
  obtain ⟨⟨hpoints, -⟩, -⟩ := placePolygon_leaves names c x c' hx
  exact ⟨x, c', hx, hpoints, fun k name p hp => placePolygon_nodeCount hc hx hp,
    fun hn name p hp => placePolygon_last hc hx hn hp⟩

theorem polygon_nodeCount_quadrilateral :
    let c : Canvas Float (Graph Float) := .start .empty (.constant 0.25)
    ∃ x c' p, (polygon ["A", "B", "C", "D"]).place.run c = (.ok x, c') ∧
      x.points[3]? = some ("D", p) ∧ 2 ^ 2 ≤ c'.memory.nodeCount p.x + 1 := by
  intro c
  obtain ⟨-, x, c', hx, hnames, hcount, -⟩ :=
    @polygon_nodeCount ["A", "B", "C", "D"] (by decide) c Graph.empty_wellFormed
  obtain ⟨p, hp⟩ := @exists_point _ x 3 "D" (hnames ▸ rfl)
  exact ⟨x, c', p, hx, hp, (hcount 2 "D" p hp).1⟩

/-- The last of sixteen vertices has coordinates of more than sixteen thousand nodes. -/
theorem sixteen_vertices_exceed :
    let names := (List.range 16).map fun i => "P" ++ toString i
    let c : Canvas Float (Graph Float) := .start .empty (.constant 0.25)
    ∃ x c' p, (polygon names).place.run c = (.ok x, c') ∧
      x.points.getLast? = some ("P15", p) ∧ 1000 * names.length < c'.memory.nodeCount p.x := by
  intro names c
  have hc : c.memory.WellFormed := Graph.empty_wellFormed
  obtain ⟨x, c', hx⟩ := placePolygon_granted (S := Formula Float) names c
  obtain ⟨⟨hpoints, -⟩, -⟩ := placePolygon_leaves names c x c' hx
  have hlength : x.points.length = 16 := (List.length_map ..).symm.trans (congrArg List.length hpoints)
  obtain ⟨p, hp⟩ := @exists_point _ x 15 "P15" (hpoints ▸ rfl)
  have hlast : x.points.getLast? = some ("P15", p) := by
    rw [List.getLast?_eq_getElem?, hlength, hp]
  exact ⟨x, c', p, hx, hlast, (placePolygon_last hc hx (Nat.le_refl 16) hlast).1⟩

end Placement

end PlaneFigure
