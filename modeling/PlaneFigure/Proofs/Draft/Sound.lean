import Mathlib.Data.Set.Insert
import PlaneFigure.Proofs.Draft.Outline
import PlaneFigure.Proofs.Geometry.Calculation
import PlaneFigure.Proofs.Simulation.Draft

/-!
Drafts that record formulas, instruction after instruction. All points and losses are recorded in
the graph of the draft, and an instruction only adds to the graph and the tables. So the values that
a point or a loss has for given values of the variables are those that are computed, in numbers,
from the values of the points that were there before.
-/

namespace PlaneFigure

open PlaneFigure.Geometry

section Map

variable {S T R : Type} (f : S → T)

def Loss.map (l : Loss S R) : Loss T R := ⟨f l.residual, l.weight⟩

def LossTable.map (t : LossTable S R) : LossTable T R := ⟨t.entries.map fun e => (e.1, e.2.map f)⟩

def Addition.map (x : Addition S R) : Addition T R where
  points := x.points.map fun e => (e.1, e.2.map f)
  losses := x.losses.map fun e => (e.1, e.2.map f)

end Map

section Stands

variable {R α β : Type} [Mirror R α β] {w : World R}

instance : Mirror R (Crossing α) (Crossing β) where
  Stands w x y := Stands w x.lines y.lines ∧ Stands w x.det y.det ∧ Stands w x.directions y.directions
  mono hle hs := ⟨hs.1.mono hle, hs.2.1.mono hle, hs.2.2.mono hle⟩

instance {x : Crossing α} {y : Crossing β} [h : Stands w x y] : Stands w x.lines y.lines := h.out.1

instance {x : Crossing α} {y : Crossing β} [h : Stands w x y] : Stands w x.det y.det := h.out.2.1

instance {x : Crossing α} {y : Crossing β} [h : Stands w x y] :
    Stands w x.directions y.directions :=
  h.out.2.2

instance {l : TwoPoints α × TwoPoints α} {x : α} {d : Point α × Point α}
    {l' : TwoPoints β × TwoPoints β} {x' : β} {d' : Point β × Point β} [hl : Stands w l l']
    [hx : Stands w x x'] [hd : Stands w d d'] : Stands w (Crossing.mk l x d) (Crossing.mk l' x' d') :=
  ⟨hl, hx, hd⟩

end Stands

variable {R : Type} [Number R]

namespace Simulates

variable {A : Basis R} {w : World R}

theorem cross {l m : Line (Formula R)} {l' m' : Line R} [Stands w l l'] [Stands w m m'] :
    Simulates (OnGraph A) w (l.cross m) (l'.cross m') :=
  .bind .line_points <| .bind .line_points <| .bind .det <| .bind .direction <|
    .bind .direction .pure

theorem record {a : Action (Formula R)} {a' : Action R} [h : Stands w a a'] :
    Simulates (OnGraph A) w a.record a'.record := by
  obtain ⟨z, rfl, rfl⟩ := h.out
  cases z with
  | place p => exact .pure
  | construct name c =>
      have : Stands w (c.map Twin.formula) (c.map Twin.number) := ⟨⟨c, rfl, rfl⟩⟩
      exact .bind .construction_point .pure
  | intersect name l m =>
      have : Stands w (l.2.map Twin.formula) (l.2.map Twin.number) := ⟨⟨l.2, rfl, rfl⟩⟩
      have : Stands w (m.2.map Twin.formula) (m.2.map Twin.number) := ⟨⟨m.2, rfl, rfl⟩⟩
      exact .bind .cross <| .bind .intersection .pure
  | relate label r =>
      have : Stands w (r.map Twin.formula) (r.map Twin.number) := ⟨⟨r, rfl, rfl⟩⟩
      exact .bind .losses .pure

end Simulates

section Values

variable {w : World R} {ρ : Nat → R}

/-- The values of the variables that are possible in a world tell what a formula stands for. -/
theorem Stands.point_eq {p : Point (Formula R)} {q : Point R} (h : Stands w p q)
    (hρ : ρ ∈ w.assignments) : p.map (w.graph.value ρ) = q := by
  obtain ⟨hx, hy⟩ := h.out
  rw [Point.map, hx.out.2 ρ hρ, hy.out.2 ρ hρ]

theorem Stands.loss_eq {l : Loss (Formula R) R} {m : Loss R R} (h : Stands w l m)
    (hρ : ρ ∈ w.assignments) : l.map (w.graph.value ρ) = m := by
  obtain ⟨hresidual, hweight⟩ := h.out
  rw [Loss.map, hresidual.out.2 ρ hρ, hweight]

theorem Stands.points_eq {l : List (String × Point (Formula R))} {l' : List (String × Point R)}
    (h : Stands w l l') (hρ : ρ ∈ w.assignments) :
    l.map (fun e => (e.1, e.2.map (w.graph.value ρ))) = l' := by
  rw [← List.map_id l']
  exact h.map_eq fun _ _ he => Prod.ext he.out.1.out (he.out.2.point_eq hρ)

theorem Stands.losses_eq {l : List (String × Loss (Formula R) R)} {l' : List (String × Loss R R)}
    (h : Stands w l l') (hρ : ρ ∈ w.assignments) :
    l.map (fun e => (e.1, e.2.map (w.graph.value ρ))) = l' := by
  rw [← List.map_id l']
  exact h.map_eq fun _ _ he => Prod.ext he.out.1.out (he.out.2.loss_eq hρ)

theorem Stands.addition_eq {x : Addition (Formula R) R} {y : Addition R R} (h : Stands w x y)
    (hρ : ρ ∈ w.assignments) : x.map (w.graph.value ρ) = y := by
  obtain ⟨hpoints, hlosses⟩ := h.out
  rw [Addition.map, hpoints.points_eq hρ, hlosses.losses_eq hρ]

end Values

/-- A draft whose scalars are formulas over any numbers. -/
abbrev SymbolicDraft (R : Type) := Draft (Formula R) R (Graph R)

/-- Later drafts have the same formulas, points and losses, and maybe more. -/
instance : Preorder (SymbolicDraft R) where
  le d d' := d.canvas.memory ≤ d'.canvas.memory ∧ d.points.entries <+: d'.points.entries ∧
    d.losses.entries <+: d'.losses.entries
  le_refl d := ⟨le_refl _, List.prefix_refl _, List.prefix_refl _⟩
  le_trans _ _ _ h h' := ⟨h.1.trans h'.1, h.2.1.trans h'.2.1, h.2.2.trans h'.2.2⟩

/-- Points and losses that are recorded in a graph. -/
structure Graph.Holds (g : Graph R) (points : List (String × Point (Formula R)))
    (losses : List (String × Loss (Formula R) R)) : Prop where
  points : ∀ e ∈ points, e.2.x.root < g.size ∧ e.2.y.root < g.size
  losses : ∀ e ∈ losses, e.2.residual.root < g.size

namespace Graph.Holds

variable {g g' : Graph R} {points points' : List (String × Point (Formula R))}
  {losses losses' : List (String × Loss (Formula R) R)} {ρ : Nat → R}

omit [Number R] in
theorem mono (h : g.Holds points losses) (hle : g ≤ g') : g'.Holds points losses := by
  have hsize := Graph.size_le_of_le hle
  refine ⟨fun e he => ?_, fun e he => (h.losses e he).trans_le hsize⟩
  obtain ⟨hx, hy⟩ := h.points e he
  exact ⟨hx.trans_le hsize, hy.trans_le hsize⟩

omit [Number R] in
theorem append (h : g.Holds points losses) (h' : g.Holds points' losses') :
    g.Holds (points ++ points') (losses ++ losses') :=
  ⟨List.forall_mem_append.mpr ⟨h.points, h'.points⟩,
    List.forall_mem_append.mpr ⟨h.losses, h'.losses⟩⟩

omit [Number R] in
theorem of_append (h : g.Holds (points ++ points') (losses ++ losses')) : g.Holds points' losses' :=
  ⟨(List.forall_mem_append.mp h.points).2, (List.forall_mem_append.mp h.losses).2⟩

/-- What stands for something is recorded. -/
theorem of_stands {w : World R} {x : Addition (Formula R) R} {y : Addition R R}
    (h : Stands w x y) : w.graph.Holds x.points x.losses := by
  obtain ⟨hpoints, hlosses⟩ := h.out
  constructor
  · exact hpoints.forall_mem fun _ _ he => ⟨he.out.2.out.1.out.1, he.out.2.out.2.out.1⟩
  · exact hlosses.forall_mem fun _ _ he => he.out.2.out.1.out.1

/-- What is recorded keeps its value when more is recorded. -/
theorem points_eq (h : g.Holds points losses) (hle : g ≤ g') :
    points.map (fun e => (e.1, e.2.map (g'.value ρ))) =
      points.map fun e => (e.1, e.2.map (g.value ρ)) := by
  refine List.map_congr_left fun e he => ?_
  obtain ⟨hx, hy⟩ := h.points e he
  have hx' : g'.value ρ e.2.x = g.value ρ e.2.x := Graph.valueAt_of_le hle hx
  have hy' : g'.value ρ e.2.y = g.value ρ e.2.y := Graph.valueAt_of_le hle hy
  rw [Point.map, Point.map, hx', hy']

theorem losses_eq (h : g.Holds points losses) (hle : g ≤ g') :
    losses.map (fun e => (e.1, e.2.map (g'.value ρ))) =
      losses.map fun e => (e.1, e.2.map (g.value ρ)) := by
  refine List.map_congr_left fun e he => ?_
  have hvalue : g'.value ρ e.2.residual = g.value ρ e.2.residual :=
    Graph.valueAt_of_le hle (h.losses e he)
  rw [Loss.map, Loss.map, hvalue]

/-- Recorded formulas stand for their values. -/
theorem formula_stands (hg : g.WellFormed) {f : Formula R} (hf : f.root < g.size) :
    Stands (⟨g, hg, {ρ}⟩ : World R) f (g.value ρ f) := by
  refine ⟨hf, ?_⟩
  rintro _ rfl
  rfl

theorem points_stand (h : g.Holds points losses) (hg : g.WellFormed) :
    Stands (⟨g, hg, {ρ}⟩ : World R) points (points.map fun e => (e.1, e.2.map (g.value ρ))) := by
  refine ⟨List.forall₂_map_right_iff.mpr (List.forall₂_same.mpr fun e he => ?_)⟩
  obtain ⟨hx, hy⟩ := h.points e he
  exact ⟨⟨rfl⟩, ⟨formula_stands hg hx, formula_stands hg hy⟩⟩

theorem losses_stand (h : g.Holds points losses) (hg : g.WellFormed) :
    Stands (⟨g, hg, {ρ}⟩ : World R) losses (losses.map fun e => (e.1, e.2.map (g.value ρ))) := by
  refine ⟨List.forall₂_map_right_iff.mpr (List.forall₂_same.mpr fun e he => ?_)⟩
  exact ⟨⟨rfl⟩, ⟨formula_stands hg (h.losses e he), rfl⟩⟩

end Graph.Holds

/-- Everything in the tables is recorded, and so is every variable, once and under its number. -/
structure Draft.Sound (d : SymbolicDraft R) : Prop where
  graph : d.canvas.memory.WellFormed
  tables : d.canvas.memory.Holds d.points.entries d.losses.entries
  leaves : d.canvas.memory.leaves = List.range d.canvas.vars.size

/-- Placements record what they add, if variables are granted. -/
theorem Placement.place_recorded [Uniform R] {p : Placement} {c c' : Canvas R (Graph R)}
    {x : Addition (Formula R) R} (hc : c.memory.WellFormed) (h : p.place.run c = (.ok x, c')) :
    c.memory ≤ c'.memory ∧ c'.memory.WellFormed ∧ c'.memory.Holds x.points x.losses ∧
      ∃ n, c'.vars.size = c.vars.size + n ∧
        c'.memory.leaves = c.memory.leaves ++ List.range' c.vars.size n := by
  -- in a world without assignments, nothing is asked of sine and cosine
  let w : World R := ⟨c.memory, hc, c.admitted ∩ ∅⟩
  have : w.Symmetric := ⟨fun hne => hne.some_mem.2.elim⟩
  obtain ⟨w', hle, hcanvas', hstands⟩ := Attempts.place (p := p) (β := R) c _ (.start ∅ c hc)
  rw [h] at hcanvas' hstands
  obtain ⟨_, hy, -⟩ | ⟨y, z, hy, -, hyz⟩ := hstands.except_cases <;> cases hy
  have hgraph : w'.graph = c'.memory := hcanvas'.graph
  rw [← hgraph]
  exact ⟨hle.1, w'.wellFormed, .of_stands hyz, hgraph ▸ hcanvas'.leaves⟩

/-- Other actions record what they add, and its values are those computed from numbers. -/
theorem Action.record_recorded {w : World R} {g : Graph R} {ρ : Nat → R} {a : Action (Formula R)}
    {b : Action R} {x : Addition (Formula R) R} (hρ : ρ ∈ w.assignments) (hab : Stands w a b)
    (h : a.record w.graph = (x, g)) :
    w.graph ≤ g ∧ g.WellFormed ∧ g.Holds x.points x.losses ∧ g.leaves = w.graph.leaves ∧
      x.map (g.value ρ) = calculate b.record := by
  have hrun : Simulates (OnGraph w.basis) w a.record b.record := .record
  obtain ⟨w', hle, ⟨hgraph, hassignments, hleaves⟩, hxy⟩ := hrun w.graph () ⟨rfl, rfl, rfl⟩
  rw [h] at hgraph hleaves hxy
  obtain rfl : w'.graph = g := hgraph
  exact ⟨hle.1, w'.wellFormed, .of_stands hxy, hleaves, hxy.addition_eq (hassignments ▸ hρ)⟩

namespace Draft

/-- The positions of the points when variable `i` has the value `ρ i`. -/
def positions (ρ : Nat → R) (d : SymbolicDraft R) : PointTable R :=
  d.points.map (d.canvas.memory.value ρ)

namespace Sound

variable {d d' : SymbolicDraft R} {ρ : Nat → R}

theorem points_stand (h : d.Sound) :
    Stands (⟨d.canvas.memory, h.graph, {ρ}⟩ : World R) d.points (d.positions ρ) :=
  ⟨h.tables.points_stand h.graph⟩

/-- Points keep their positions. -/
theorem positions_prefix (h : d.Sound) (hle : d ≤ d') :
    (d.positions ρ).entries <+: (d'.positions ρ).entries := by
  obtain ⟨hmemory, ⟨more, hmore⟩, -⟩ := hle
  refine ⟨more.map fun e => (e.1, e.2.map (d'.canvas.memory.value ρ)), ?_⟩
  unfold positions PointTable.map
  rw [← hmore, List.map_append, h.tables.points_eq hmemory]

end Sound

variable [Uniform R] {i : Instruction} {d d' : SymbolicDraft R} {x : Addition (Formula R) R}

omit [Number R] [Uniform R] in
theorem Sound.add (h : d.Sound) {c : Canvas R (Graph R)} (hle : d.canvas.memory ≤ c.memory)
    (hc : c.memory.WellFormed) (hx : c.memory.Holds x.points x.losses)
    (hleaves : c.memory.leaves = List.range c.vars.size) :
    ({ d.add x with canvas := c } : SymbolicDraft R).Sound ∧
      d ≤ { d.add x with canvas := c } :=
  ⟨⟨hc, (h.tables.mono hle).append hx, hleaves⟩, hle, List.prefix_append _ _,
    List.prefix_append _ _⟩

/-- What an instruction adds that is carried out has the values that its action computes from the
positions of the points. -/
theorem Sound.process_ok {a : Action (Formula R)} (h : d.Sound) (hi : process i d = (.ok x, d'))
    (hcheck : d.points.check i = .ok a) :
    d'.Sound ∧ d ≤ d' ∧ ∀ ρ, (∀ p, a ≠ .place p) →
      x.map (d'.canvas.memory.value ρ) = calculate (a.map (d.canvas.memory.value ρ)).record := by
  obtain ⟨_, c, hcheck', hrun, rfl⟩ := Draft.process_ok hi
  cases hcheck'.symm.trans hcheck
  obtain ⟨p, rfl, hplace⟩ | ⟨ha, hrecord, hkept⟩ := Action.run_ok hrun
  · obtain ⟨hle, hc, hx, n, hsize, hleaves⟩ := Placement.place_recorded h.graph hplace
    have hleaves' : c.memory.leaves = List.range c.vars.size := by
      have hrange := @List.range'_append 0 d.canvas.vars.size n 1
      rw [Nat.one_mul, Nat.zero_add] at hrange
      rw [hleaves, hsize, h.leaves, List.range_eq_range', List.range_eq_range', hrange]
    obtain ⟨hsound, hle⟩ := h.add hle hc hx hleaves'
    exact ⟨hsound, hle, fun _ hne => (hne p rfl).elim⟩
  · have hgrown : ∀ ρ, d.canvas.memory ≤ c.memory ∧ c.memory.WellFormed ∧
        c.memory.Holds x.points x.losses ∧ c.memory.leaves = d.canvas.memory.leaves ∧
        x.map (c.memory.value ρ) = calculate (a.map (d.canvas.memory.value ρ)).record := by
      intro ρ
      have hstands := check_stands (h.points_stand (ρ := ρ)) i
      rw [positions, PointTable.check_map, hcheck] at hstands
      exact Action.record_recorded rfl ⟨hstands.out.out⟩ hrecord
    obtain ⟨hle, hc, hx, hleaves, -⟩ := hgrown fun _ => 0.0
    have hsize : c.vars.size = d.canvas.vars.size := by rw [hkept]
    obtain ⟨hsound, hle⟩ := h.add hle hc hx (by rw [hleaves, h.leaves, hsize])
    exact ⟨hsound, hle, fun ρ _ => (hgrown ρ).2.2.2.2⟩

omit [Uniform R] in
/-- A loss on all points is recorded. -/
theorem Sound.regularize (h : d.Sound) (label : String) (weight : R) (enough : Bool)
    (residual : List (Point (Formula R)) → StateM (Graph R) (Formula R))
    (residual' : List (Point R) → StateM Unit R)
    (hresidual : ∀ A w l l', Stands w l l' → Simulates (OnGraph A) w (residual l) (residual' l')) :
    (d.regularize label weight enough residual).Sound ∧
      d ≤ d.regularize label weight enough residual := by
  unfold Draft.regularize
  split
  · let w : World R := ⟨d.canvas.memory, h.graph, {fun _ => 0.0}⟩
    have hpoints : Stands w d.points (d.positions fun _ => 0.0) := h.points_stand
    have hrun := hresidual w.basis w (d.points.entries.map (·.2))
      ((d.positions fun _ => 0.0).entries.map (·.2)) inferInstance
    obtain ⟨w', hle, ⟨hgraph, -, hleaves⟩, hstands⟩ := hrun d.canvas.memory () ⟨rfl, rfl, rfl⟩
    generalize residual (d.points.entries.map (·.2)) d.canvas.memory = r at hgraph hleaves hstands ⊢
    obtain ⟨f, g⟩ := r
    obtain rfl : w'.graph = g := hgraph
    let x : Addition (Formula R) R := { losses := [(label, ⟨f, weight⟩)] }
    have hx : w'.graph.Holds x.points x.losses :=
      ⟨nofun, List.forall_mem_singleton.mpr hstands.out.1⟩
    obtain ⟨hsound, hle'⟩ := h.add (c := { d.canvas with memory := w'.graph }) hle.1 w'.wellFormed
      hx (hleaves.trans h.leaves)
    have hpoints : d.points.append x.points = d.points :=
      congrArg PointTable.mk (List.append_nil _)
    rw [Draft.add, hpoints] at hsound hle'
    exact ⟨hsound, hle'⟩
  · exact ⟨h, le_refl d⟩

omit [Uniform R] in
theorem Sound.finish (h : d.Sound) : d.finish.Sound ∧ d ≤ d.finish := by
  obtain ⟨h₁, hle₁⟩ := h.regularize "points-norm" d.settings.regularizePoints
    (0 < d.points.entries.length) Regularizer.meanNorm Regularizer.meanNorm fun _ _ _ _ _ => .meanNorm
  obtain ⟨h₂, hle₂⟩ := h₁.regularize "points-distinct" _ (1 < d.points.entries.length)
    Regularizer.meanCloseness Regularizer.meanCloseness fun _ _ _ _ _ => .meanCloseness
  exact ⟨h₂, hle₁.trans hle₂⟩

omit [Number R] [Uniform R] in
theorem Sound.start (draws : Draws R) (settings : DraftSettings R) :
    Sound ⟨{ memory := Graph.empty, draws }, settings, {}, {}⟩ :=
  ⟨Graph.empty_wellFormed, ⟨nofun, nofun⟩, rfl⟩

/-- The instruction was carried out on the way to a draft, and this is what it added. -/
def CarriedOut (i : Instruction) (x : Addition (Formula R) R) (d : SymbolicDraft R) : Prop :=
  ∃ d₁ d₂, d₁.Sound ∧ process i d₁ = (.ok x, d₂) ∧ d₂ ≤ d

/-- What was there when an instruction was carried out, and what it added. -/
theorem CarriedOut.reads (h : CarriedOut i x d) (ρ : Nat → R) :
    ∃ (t : PointTable R) (a : Action R), t.check i = .ok a ∧
      t.entries <+: (d.positions ρ).entries ∧ x.lossWeights = a.outline.losses ∧
      (∀ e ∈ x.losses, e ∈ d.losses.entries) ∧
      ((∀ p, a ≠ .place p) → x.map (d.canvas.memory.value ρ) = calculate a.record ∧
        (t.append (calculate a.record).points).entries <+: (d.positions ρ).entries) := by
  obtain ⟨d₁, d₂, hsound, hrun, hle⟩ := h
  obtain ⟨a, c, hcheck, haction, rfl⟩ := Draft.process_ok hrun
  obtain ⟨hsound₂, hle₂, hvalues⟩ := hsound.process_ok hrun hcheck
  obtain ⟨-, hlosses, -⟩ := Action.run_outline haction
  refine ⟨d₁.positions ρ, a.map (d₁.canvas.memory.value ρ), ?_,
    hsound.positions_prefix (hle₂.trans hle), ?_, fun e he => ?_, fun ha => ?_⟩
  · rw [positions, PointTable.check_map, hcheck]
    rfl
  · rw [hlosses, Action.outline_map]
  · exact hle.2.2.subset (List.mem_append_right _ he)
  · have hvalue := hvalues ρ fun p hp => ha p (by rw [hp]; rfl)
    have hx : c.memory.Holds x.points x.losses := hsound₂.tables.of_append
    -- what was added is recorded, so its values stay what they were
    have hkeep : x.map (d.canvas.memory.value ρ) = x.map (c.memory.value ρ) := by
      unfold Addition.map
      rw [hx.points_eq hle.1, hx.losses_eq hle.1]
    refine ⟨hkeep.trans hvalue, ?_⟩
    have hadded : ((d₁.positions ρ).append (x.map (c.memory.value ρ)).points).entries =
        (positions ρ { d₁.add x with canvas := c }).entries := by
      change d₁.points.entries.map _ ++ x.points.map _ = (d₁.points.entries ++ x.points).map _
      rw [List.map_append, hsound.tables.points_eq hle₂.1]
    rw [← hvalue, hadded]
    exact hsound₂.positions_prefix hle

/-- A run carries out all of its instructions, and all losses come from them. -/
theorem Sound.processAll_ok {is : List Instruction} (h : d.Sound) (hrun : processAll is d = .ok d') :
    d'.Sound ∧ d ≤ d' ∧ (∀ i ∈ is, ∃ x, CarriedOut i x d') ∧
      ∀ e ∈ d'.losses.entries, e ∈ d.losses.entries ∨
        ∃ i ∈ is, ∃ x, CarriedOut i x d' ∧ e ∈ x.losses := by
  induction is generalizing d with
  | nil =>
      cases hrun
      exact ⟨h, le_refl _, nofun, fun e he => .inl he⟩
  | cons i is ih =>
      unfold processAll at hrun
      split at hrun
      next x d₁ hi =>
        obtain ⟨a, c, hcheck, -, rfl⟩ := Draft.process_ok hi
        obtain ⟨h₁, hle₁, -⟩ := h.process_ok hi hcheck
        obtain ⟨h', hle, hall, hlosses⟩ := ih h₁ hrun
        have hdone : CarriedOut i x d' := ⟨d, _, h, hi, hle⟩
        refine ⟨h', hle₁.trans hle, List.forall_mem_cons.mpr ⟨⟨x, hdone⟩, hall⟩, fun e he => ?_⟩
        -- a loss was there before, or it is from this instruction or from a later one
        obtain hold | ⟨j, hj, y, hy, hey⟩ := hlosses e he
        · obtain hold | hnew := List.mem_append.mp hold
          · exact .inl hold
          · exact .inr ⟨i, .head _, x, hdone, hnew⟩
        · exact .inr ⟨j, .tail _ hj, y, hy, hey⟩
      next => cases hrun

end Draft

end PlaneFigure
