import PlaneFigure.Proofs.Draft.Sound
import PlaneFigure.Proofs.Draft.Variables
import PlaneFigure.Proofs.Simulation.Expression

/-!
The starting placement. Constructions and assertions create no variables and draw no numbers, so the
initial values of the variables, and the coordinates of the points that are placed freely, are those
that the placements alone give, one after the other on a canvas of their own. On formulas, that
canvas is one of expressions: what else the graph records does not matter to them.
-/

namespace PlaneFigure

namespace Instruction

/-- Whether points are placed freely. -/
def isFree : Instruction → Bool
  | sample .. => true
  | parameterize .. => true
  | _ => false

/-- The placement that is asked for, if one is. -/
def placement? : Instruction → Option Placement
  | sample points sampler args =>
    ((Sampler.ofId sampler args).bind fun s => Placement.ofSampler s points).toOption
  | parameterize point _ => some (.free [point])
  | _ => none

theorem placement?_filter (is : List Instruction) :
    (is.filter isFree).filterMap placement? = is.filterMap placement? := by
  rw [List.filterMap_filter]
  congr 1
  funext i
  cases i <;> rfl

end Instruction

def Action.placement? {S : Type} : Action S → Option Placement
  | place p => some p
  | _ => none

theorem PointTable.check_placement? {S : Type} {t : PointTable S} {i : Instruction} {a : Action S}
    (h : t.check i = .ok a) :
    i.placement? = a.placement? ∧ i.isFree = a.placement?.isSome := by
  cases i with
  | sample points sampler args =>
      obtain ⟨-, s, p, hs, hp, rfl⟩ := check_sample h
      have hbind : ((Sampler.ofId sampler args).bind fun s => Placement.ofSampler s points) = .ok p :=
        bind_eq_ok.mpr ⟨s, hs, hp⟩
      exact ⟨congrArg Except.toOption hbind, rfl⟩
  | compute point c =>
      obtain ⟨-, ⟨k, rfl⟩ | ⟨l, m, rfl⟩⟩ := check_compute h <;> exact ⟨rfl, rfl⟩
  | parameterize point id =>
      obtain ⟨-, rfl⟩ := check_parameterize h
      exact ⟨rfl, rfl⟩
  | assert c =>
      obtain ⟨-, kind, points, r, -, -, -, -, rfl⟩ := constraint_eq_ok.mp h
      exact ⟨rfl, rfl⟩

section Placements

variable {S R μ : Type} [Number R] [Uniform R] [Scalar S R μ]

/-- The points of placements that are carried out one after the other. -/
def Placement.placeAll : List Placement → Canvas.Attempt R μ (List (String × Point S))
  | [] => return []
  | p :: rest => do
    let x ← p.place
    return x.points ++ (← placeAll rest)

theorem Placement.placeAll_names {ps : List Placement} {c c' : Canvas R μ}
    {points : List (String × Point S)} (h : (placeAll ps).run c = (.ok points, c')) :
    points.map (·.1) = ps.flatMap pointNames := by
  induction ps generalizing c points with
  | nil =>
      cases h
      rfl
  | cons p ps ih =>
      obtain ⟨x, c₁, hx, h⟩ := Canvas.Attempt.run_bind_eq_ok h
      obtain ⟨rest, c₂, hrest, h⟩ := Canvas.Attempt.run_bind_eq_ok h
      cases h
      obtain ⟨⟨hnames, -⟩, -⟩ := p.place_leaves c x c₁ hx
      rw [List.map_append, ih hrest, List.flatMap_cons, ← hnames]
      rfl

end Placements

namespace Draft

variable {S T R μ : Type} [Number R] [Uniform R] [Scalar S R μ] [Scalar T R Unit]

/-- A relation to canvases on which placements are carried out alone, with the points that they have
placed: it is kept if an instruction that is carried out is followed by its placement, if any. -/
structure Tracked (P : Draft S R μ → Canvas R Unit → List (String × Point T) → Prop) : Prop where
  skip {d d' : Draft S R μ} {c : Canvas R Unit} {points : List (String × Point T)}
    {i : Instruction} {x : Addition S R} (h : P d c points) (hi : process i d = (.ok x, d'))
    (hplace : i.placement? = none) : P d' c points
  place {d d' : Draft S R μ} {c : Canvas R Unit} {points : List (String × Point T)}
    {i : Instruction} {x : Addition S R} {p : Placement} (h : P d c points)
    (hi : process i d = (.ok x, d')) (hplace : i.placement? = some p) :
    ∃ y c', p.place.run c = (.ok y, c') ∧ P d' c' (points ++ y.points)

theorem Tracked.run {P : Draft S R μ → Canvas R Unit → List (String × Point T) → Prop}
    (hP : Tracked P) {is : List Instruction} {d d' : Draft S R μ} {c : Canvas R Unit}
    {points : List (String × Point T)} (h : P d c points) (hrun : processAll is d = .ok d') :
    ∃ placed c', (Placement.placeAll (is.filterMap Instruction.placement?)).run c =
      (.ok placed, c') ∧ P d' c' (points ++ placed) := by
  induction is generalizing d c points with
  | nil =>
      cases hrun
      exact ⟨[], c, rfl, (List.append_nil points).symm ▸ h⟩
  | cons i is ih =>
      unfold processAll at hrun
      split at hrun
      next x d₁ hi =>
        cases hplace : i.placement? with
        | none =>
            rw [List.filterMap_cons_none hplace]
            exact ih (hP.skip h hi hplace) hrun
        | some p =>
            obtain ⟨y, c₁, hy, h₁⟩ := hP.place h hi hplace
            obtain ⟨placed, c₂, hplaced, h₂⟩ := ih h₁ hrun
            rw [List.filterMap_cons_some hplace]
            refine ⟨y.points ++ placed, c₂, ?_, List.append_assoc .. ▸ h₂⟩
            exact (Canvas.Attempt.run_bind hy).trans ((Canvas.Attempt.run_bind hplaced).trans rfl)
      next => cases hrun

/-- The points that free instructions define are those that their placements place. -/
theorem processAll_targets {is : List Instruction} {d d' : Draft S R μ}
    (h : processAll is d = .ok d') :
    (is.filter Instruction.isFree).flatMap Instruction.targets =
      (is.filterMap Instruction.placement?).flatMap Placement.pointNames := by
  induction is generalizing d with
  | nil => rfl
  | cons i is ih =>
      unfold processAll at h
      split at h
      next x d₁ hi =>
        obtain ⟨a, -, hcheck, -⟩ := process_ok hi
        obtain ⟨hplace, hfree⟩ := PointTable.check_placement? hcheck
        obtain ⟨-, htargets⟩ := PointTable.check_targets (R := R) hcheck
        cases a with
        | place p =>
            rw [List.filter_cons_of_pos hfree, List.filterMap_cons_some hplace, List.flatMap_cons,
              List.flatMap_cons, ih h, ← htargets]
            rfl
        | _ =>
            rw [List.filter_cons_of_neg (ne_true_of_eq_false hfree),
              List.filterMap_cons_none hplace, ih h]
      next => cases h

/-- An instruction that is carried out does what its placement does, or leaves the variables and their
source as they are. -/
theorem process_placement? {i : Instruction} {d d' : Draft S R μ} {x : Addition S R}
    (h : process i d = (.ok x, d')) :
    (∀ p, i.placement? = some p → p.place.run d.canvas = (.ok x, d'.canvas)) ∧
      (i.placement? = none → d'.canvas = { d.canvas with memory := d'.canvas.memory }) := by
  obtain ⟨a, c, hcheck, hrun, rfl⟩ := process_ok h
  rw [(PointTable.check_placement? hcheck).1]
  obtain ⟨p, rfl, hplace⟩ | ⟨ha, -, hkept⟩ := Action.run_ok hrun
  · refine ⟨fun q hq => ?_, nofun⟩
    cases hq
    exact hplace
  · refine ⟨fun q hq => ?_, fun _ => hkept⟩
    cases a with
    | place p => exact (ha p rfl).elim
    | _ => cases hq

/-- On numbers, placements do on the canvas of the draft what they do alone. -/
theorem tracked_numbers {S : Type} [Scalar S R Unit] :
    Tracked fun (d : Draft S R Unit) c (points : List (String × Point S)) =>
      d.canvas = c ∧ points ⊆ d.points.entries where
  skip := by
    rintro d d' _ points i x ⟨rfl, hpoints⟩ hi hplace
    have hcanvas := (process_placement? hi).2 hplace
    obtain ⟨hadded, -⟩ := process_targets hi
    rw [hadded]
    exact ⟨hcanvas, List.Subset.trans hpoints (List.subset_append_left ..)⟩
  place := by
    rintro d d' _ points i x p ⟨rfl, hpoints⟩ hi hplace
    have hcanvas := (process_placement? hi).1 p hplace
    obtain ⟨hadded, -⟩ := process_targets hi
    rw [hadded]
    have hold : points ⊆ d.points.entries ++ x.points :=
      List.Subset.trans hpoints (List.subset_append_left ..)
    exact ⟨x, d'.canvas, hcanvas, rfl, List.append_subset.mpr ⟨hold, List.subset_append_right ..⟩⟩

section Formulas

variable {d d' : SymbolicDraft R}

/-- The points as expressions. -/
def expressions (d : SymbolicDraft R) : PointTable (Expression R) :=
  d.points.map fun f => d.canvas.memory.unfold f.root

omit [Uniform R] in
/-- Points keep their expressions. -/
theorem Sound.expressions_prefix (h : d.Sound) (hle : d ≤ d') :
    d.expressions.entries <+: d'.expressions.entries := by
  obtain ⟨hmemory, ⟨more, hmore⟩, -⟩ := hle
  refine ⟨more.map fun e => (e.1, e.2.map fun f => d'.canvas.memory.unfold f.root), ?_⟩
  unfold expressions PointTable.map
  rw [← hmore, List.map_append]
  congr 1
  refine List.map_congr_left fun e he => ?_
  obtain ⟨hx, hy⟩ := h.tables.points e he
  rw [Point.map, Point.map, Graph.unfold_of_le hmemory hx, Graph.unfold_of_le hmemory hy]

/-- The draft has the variables of a canvas of expressions, and the points that were placed there. -/
structure Unfolds (d : SymbolicDraft R) (c : Canvas R Unit)
    (points : List (String × Point (Expression R))) : Prop where
  sound : d.Sound
  vars : d.canvas.vars = c.vars
  draws : d.canvas.draws = c.draws
  points : points ⊆ d.expressions.entries

omit [Uniform R] in
theorem Stands.expressions_eq {w : World R} {l : List (String × Point (Formula R))}
    {l' : List (String × Point (Expression R))} (h : Stands w l l') :
    l.map (fun e => (e.1, e.2.map fun f => w.graph.unfold f.root)) = l' := by
  rw [← List.map_id l']
  refine h.map_eq fun _ _ he => ?_
  obtain ⟨hname, hx, hy⟩ := he.out
  exact Prod.ext hname.out (congrArg₂ Point.mk hx.out.2 hy.out.2)

/-- On formulas, placements do on the canvas of the draft what they do on a canvas of expressions. -/
theorem tracked_formulas : Tracked (Unfolds (R := R)) where
  skip := by
    rintro d d' c points i x ⟨hsound, hvars, hdraws, hpoints⟩ hi hplace
    have hcanvas := (process_placement? hi).2 hplace
    obtain ⟨a, -, hcheck, -⟩ := process_ok hi
    obtain ⟨hsound', hle, -⟩ := hsound.process_ok hi hcheck
    exact ⟨hsound', (congrArg Canvas.vars hcanvas).trans hvars,
      (congrArg Canvas.draws hcanvas).trans hdraws,
      List.Subset.trans hpoints (hsound.expressions_prefix hle).subset⟩
  place := by
    rintro d d' ⟨⟨⟩, _, _⟩ points i x p ⟨hsound, rfl, rfl, hpoints⟩ hi hplace
    have hrun := (process_placement? hi).1 p hplace
    obtain ⟨a, -, hcheck, -⟩ := process_ok hi
    obtain ⟨hsound', hle, -⟩ := hsound.process_ok hi hcheck
    obtain ⟨w, -, hcanvas, hstands⟩ :=
      Attempts.place (p := p) (β := Expression R) d.canvas _ (.start Set.univ d.canvas hsound.graph)
    rw [hrun] at hcanvas hstands
    obtain ⟨_, hx, -⟩ | ⟨_, y, hx, hy, hxy⟩ := hstands.except_cases <;> cases hx
    refine ⟨y, _, Prod.ext hy rfl, hsound', hcanvas.vars, hcanvas.draws, ?_⟩
    have hold := List.Subset.trans hpoints (hsound.expressions_prefix hle).subset
    refine List.append_subset.mpr ⟨hold, ?_⟩
    have hnew : y.points = x.points.map fun e => (e.1, e.2.map fun f => w.graph.unfold f.root) :=
      (Stands.expressions_eq hxy.out.1).symm
    obtain ⟨hadded, -⟩ := process_targets hi
    rw [hnew, hcanvas.graph, expressions, hadded]
    exact List.map_subset _ (List.subset_append_right ..)

end Formulas

/-! ### Initial values and coordinates -/

omit [Uniform R] in
theorem resolve_lookup {d : Draft S R μ} {name : String} {p : Point S} (hd : d.points.names.Nodup)
    (hp : (name, p) ∈ d.points.entries) :
    d.resolve.lookup name = some (p.read d.canvas.memory d.canvas.assignment) := by
  refine NameMap.lookup_ofEntries_of_mem ?_ (List.mem_map_of_mem hp)
  rw [List.map_map]
  exact hd

/-- Whatever is constructed and asserted between them, the same free instructions give all variables
the same initial values, and the points that they define the same coordinates. -/
def Undisturbed (S : Type) [Scalar S R μ] (canvas : Canvas R μ) : Prop :=
  ∀ (settings settings' : DraftSettings R) (is is' : List Instruction) (d d' : Draft S R μ),
    is.filter Instruction.isFree = is'.filter Instruction.isFree →
    ofInstructions canvas settings is = .ok d → ofInstructions canvas settings' is' = .ok d' →
    d.canvas.vars = d'.canvas.vars ∧ ∀ i ∈ is, i.isFree → ∀ name ∈ i.targets,
      ∃ p, d.resolve.lookup name = some p ∧ d'.resolve.lookup name = some p

/-- If the canvas on which the placements are carried out alone tells the variables and the
coordinates, these depend on the placements alone. -/
theorem Tracked.undisturbed {P : Draft S R μ → Canvas R Unit → List (String × Point T) → Prop}
    (hP : Tracked P) {canvas : Canvas R μ} {c : Canvas R Unit}
    (value : Canvas R Unit → Point T → Point R)
    (hstart : ∀ settings, P ⟨canvas, settings, {}, {}⟩ c [])
    (hvalue : ∀ {d c points}, P d c points → d.points.names.Nodup →
      d.finish.canvas.vars = c.vars ∧
        ∀ name p, (name, p) ∈ points → d.finish.resolve.lookup name = some (value c p)) :
    Undisturbed S canvas := by
  intro settings settings' is is' d d' hsame h h'
  obtain ⟨d₁, h₁, h⟩ := bind_eq_ok.mp h
  obtain ⟨d₂, h₂, h'⟩ := bind_eq_ok.mp h'
  cases h
  cases h'
  obtain ⟨placed, c₁, hplaced, hP₁⟩ := hP.run (hstart settings) h₁
  obtain ⟨placed', c₂, hplaced', hP₂⟩ := hP.run (hstart settings') h₂
  -- both runs carry out the same placements
  rw [← Instruction.placement?_filter, hsame, Instruction.placement?_filter] at hplaced
  cases hplaced.symm.trans hplaced'
  have hnone : ∀ settings, ({ canvas, settings } : Draft S R μ).points.names.Nodup :=
    fun _ => List.nodup_nil
  obtain ⟨hvars₁, hpoints₁⟩ := hvalue hP₁ (processAll_nodup (hnone _) h₁)
  obtain ⟨hvars₂, hpoints₂⟩ := hvalue hP₂ (processAll_nodup (hnone _) h₂)
  refine ⟨hvars₁.trans hvars₂.symm, fun i hi hfree name hname => ?_⟩
  have hmem : name ∈ placed.map (·.1) := by
    rw [Placement.placeAll_names hplaced', ← Instruction.placement?_filter, ← hsame,
      Instruction.placement?_filter, ← processAll_targets h₁]
    exact List.mem_flatMap.mpr ⟨i, List.mem_filter.mpr ⟨hi, hfree⟩, hname⟩
  obtain ⟨⟨_, p⟩, hp, rfl⟩ := List.mem_map.mp hmem
  exact ⟨value c₁ p, hpoints₁ _ p hp, hpoints₂ _ p hp⟩

omit [Uniform R] in
theorem finish_assignment (d : Draft S R μ) :
    d.finish.canvas.assignment = d.canvas.assignment := by
  funext i
  rw [Canvas.assignment, finish_vars, Canvas.assignment]

theorem undisturbed_numbers {S : Type} [Scalar S R Unit] (canvas : Canvas R Unit) :
    Undisturbed S canvas := by
  refine tracked_numbers.undisturbed (fun c p => p.read () c.assignment)
    (fun _ => ⟨rfl, List.nil_subset _⟩) ?_
  rintro d _ points ⟨rfl, hpoints⟩ hnodup
  refine ⟨finish_vars d, fun name p hp => ?_⟩
  rw [← finish_assignment]
  exact resolve_lookup (finish_points d ▸ hnodup) (finish_points d ▸ hpoints hp)

theorem undisturbed_formulas (draws : Draws R) :
    Undisturbed (Formula R) { memory := Graph.empty, draws } := by
  refine tracked_formulas.undisturbed (c := ⟨(), #[], draws⟩)
    (fun c p => p.map (Expression.value c.assignment))
    (fun settings => ⟨.start draws settings, rfl, rfl, List.nil_subset _⟩) ?_
  rintro d c points ⟨hsound, hvars, -, hpoints⟩ hnodup
  obtain ⟨hfinish, hle⟩ := hsound.finish
  refine ⟨(finish_vars d).trans hvars, fun name p hp => ?_⟩
  obtain ⟨⟨_, f⟩, hf, heq⟩ := List.mem_map.mp ((hsound.expressions_prefix hle).subset (hpoints hp))
  cases heq
  obtain ⟨hx, hy⟩ := hfinish.tables.points _ hf
  have hassignment : d.finish.canvas.assignment = c.assignment := by
    rw [finish_assignment]
    funext i
    rw [Canvas.assignment, hvars, Canvas.assignment]
  rw [resolve_lookup (finish_points d ▸ hnodup) hf, hassignment]
  exact congrArg some (congrArg₂ Point.mk (hfinish.graph.valueAt_eq_unfold _ hx)
    (hfinish.graph.valueAt_eq_unfold _ hy))

/-- The variables of a run, on numbers or formulas, in the order of their creation, are those that
the instructions create which were carried out; none are added at the end. On formulas, they are
recorded in this order, each once and under its number. So constructions and assertions, inserted,
deleted or moved as long as all is still carried out, change neither the initial value of a variable
nor the coordinates of a point that is sampled or parameterized. -/
theorem starting_placement :
    (∀ {S μ : Type} [Scalar S Float μ] (canvas : Canvas Float μ) (settings : DraftSettings Float)
        (is : List Instruction),
      let start : Draft S Float μ := { canvas, settings }
      let (carriedOut, d) := attemptAll is start
      d.canvas.varNames = canvas.varNames ++ carriedOut.flatMap Instruction.varNames ∧
        d.finish.canvas.vars = d.canvas.vars) ∧
    (∀ (draws : Draws Float) (settings : DraftSettings Float) (is : List Instruction),
      let start : FormulaDraft := ⟨{ memory := Graph.empty, draws }, settings, {}, {}⟩
      let (_, d) := attemptAll is start
      d.canvas.memory.leaves = List.range d.canvas.vars.size ∧
        d.finish.canvas.memory.leaves = List.range d.canvas.vars.size) ∧
    (∀ canvas : Canvas Float Unit, Undisturbed Float canvas) ∧
    ∀ draws : Draws Float, Undisturbed (Formula Float) { memory := Graph.empty, draws } := by
  refine ⟨fun canvas settings is => ?_, fun draws settings is => ?_, undisturbed_numbers,
    undisturbed_formulas⟩
  · exact ⟨processAll_varNames (processAll_attemptAll is _), finish_vars _⟩
  · obtain ⟨hsound, -⟩ := (Sound.start draws settings).processAll_ok (processAll_attemptAll is _)
    refine ⟨hsound.leaves, ?_⟩
    rw [← finish_vars]
    exact hsound.finish.1.leaves

/-- A centroid and an altitude beside an acute triangle, before a point of its own. -/
theorem starting_placement_centroid :
    let is : List Instruction := [.sample ["A", "B", "C"] "acuteTri" [], .parameterize "P" "coords"]
    let is' : List Instruction := [.sample ["A", "B", "C"] "acuteTri" [],
      .compute "G" ⟨"centroid", [.point "A", .point "B", .point "C"]⟩,
      .assert ⟨"perp", ["A", "G", "B", "C"], false⟩, .parameterize "P" "coords"]
    ∃ d d' : Draft Float Float Unit,
      ofInstructions (Canvas.start () (.uniform 7)) .standard is = .ok d ∧
      ofInstructions (Canvas.start () (.uniform 7)) .standard is' = .ok d' ∧
      d.canvas.vars = d'.canvas.vars ∧
      ∃ p, d.resolve.lookup "P" = some p ∧ d'.resolve.lookup "P" = some p := by
  intro is is'
  have hexists : ∀ r : Except DraftError (Draft Float Float Unit), r.isOk = true →
      ∃ d, r = .ok d := by
    rintro (e | d) hr
    · cases hr
    · exact ⟨d, rfl⟩
  obtain ⟨d, hd⟩ := hexists (ofInstructions (Canvas.start () (.uniform 7)) .standard is)
    (by decide +kernel)
  obtain ⟨d', hd'⟩ := hexists (ofInstructions (Canvas.start () (.uniform 7)) .standard is')
    (by decide +kernel)
  obtain ⟨hvars, hpoints⟩ := starting_placement.2.2.1 (.start () (.uniform 7)) .standard .standard is
    is' d d' rfl hd hd'
  exact ⟨d, d', hd, hd', hvars, hpoints (.parameterize "P" "coords") (by decide) rfl "P" (by decide)⟩

end Draft

end PlaneFigure
