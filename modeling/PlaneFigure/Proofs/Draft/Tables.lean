import PlaneFigure.Proofs.Draft.Index
import PlaneFigure.Proofs.Draft.Outline
import PlaneFigure.Proofs.Draft.Refusal
import PlaneFigure.Proofs.NameMap

/-!
What a run leaves in the tables: the points of the instructions that were carried out, in order and
under different names, as every name is checked to be new before anything is placed.
-/

namespace PlaneFigure

variable {S R μ : Type}

/-- The points that an instruction defines. -/
def Instruction.targets : Instruction → List String
  | sample points _ _ => points
  | compute point _ => [point]
  | parameterize point _ => [point]
  | assert _ => []

namespace PointTable

variable {t : PointTable S}

theorem fresh_go_eq_ok {seen names : List String} :
    fresh.go t seen names = .ok () ↔
      names.Nodup ∧ ∀ name ∈ names, name ∉ t.names ∧ name ∉ seen := by
  induction names generalizing seen with
  | nil => exact ⟨fun _ => ⟨.nil, List.forall_mem_nil _⟩, fun _ => rfl⟩
  | cons name rest ih =>
      unfold fresh.go
      split
      next h =>
        rw [Bool.or_eq_true, ← mem_names_iff, List.contains_iff_mem] at h
        constructor
        · intro herror
          cases herror
        · rintro ⟨-, hnew⟩
          obtain ⟨ht, hseen⟩ := hnew name List.mem_cons_self
          exact (h.elim ht hseen).elim
      next h =>
        rw [Bool.or_eq_true, ← mem_names_iff, List.contains_iff_mem, not_or] at h
        rw [ih, List.nodup_cons]
        constructor
        · rintro ⟨hrest, hnew⟩
          refine ⟨⟨fun hmem => (hnew name hmem).2 List.mem_cons_self, hrest⟩, fun n hn => ?_⟩
          obtain rfl | hn := List.mem_cons.mp hn
          · exact h
          · exact ⟨(hnew n hn).1, fun hseen => (hnew n hn).2 (List.mem_cons_of_mem _ hseen)⟩
        · rintro ⟨⟨hname, hrest⟩, hnew⟩
          refine ⟨hrest, fun n hn => ?_⟩
          obtain ⟨ht, hseen⟩ := hnew n (List.mem_cons_of_mem _ hn)
          refine ⟨ht, fun hmem => ?_⟩
          obtain rfl | hmem := List.mem_cons.mp hmem
          · exact hname hn
          · exact hseen hmem

/-- Names that are new and different from each other keep all names different. -/
theorem fresh_eq_ok {names : List String} (ht : t.names.Nodup) :
    t.fresh names = .ok () ↔ (t.names ++ names).Nodup := by
  have hgo : t.fresh names = .ok () ↔ names.Nodup ∧ ∀ name ∈ names, name ∉ t.names ∧ name ∉ [] :=
    fresh_go_eq_ok
  rw [hgo, List.nodup_append]
  constructor
  · rintro ⟨hnames, hnew⟩
    exact ⟨ht, hnames, fun a ha b hb heq => (hnew b hb).1 (heq ▸ ha)⟩
  · rintro ⟨-, hnames, hnew⟩
    exact ⟨hnames, fun name hname => ⟨fun hmem => hnew name hmem name hname rfl, List.not_mem_nil⟩⟩

end PointTable

namespace Placement

variable {sampler : Sampler} {names : List String} {p : Placement}

theorem ofPolygon_eq_ok : ofPolygon names = .ok p ↔ 3 ≤ names.length ∧ p = .polygon names := by
  unfold ofPolygon
  split_ifs with hfew
  · exact ⟨nofun, fun h => (hfew.not_ge h.1).elim⟩
  · rw [pure_eq_ok, eq_comm]
    exact (and_iff_right (Nat.not_lt.mp hfew)).symm

/-- Names are placed freely, as a polygon with vertices enough, or as a triangle. -/
theorem ofSampler_cases (h : ofSampler sampler names = .ok p) :
    p = .free names ∨ (3 ≤ names.length ∧ p = .polygon names) ∨
      ∃ shape corner a b c, names = [a, b, c] ∧ p = .triangle shape corner a b c := by
  unfold ofSampler at h
  split at h
  · cases h
    exact .inl rfl
  · exact .inr (.inl (ofPolygon_eq_ok.mp h))
  split_ifs at h
  · exact .inr (.inl (ofPolygon_eq_ok.mp h))
  split at h
  · obtain ⟨corner, -, h⟩ := bind_eq_ok.mp h
    cases h
    exact .inr (.inr ⟨_, corner, _, _, _, rfl, rfl⟩)
  · cases h

theorem ofSampler_pointNames (h : ofSampler sampler names = .ok p) : p.pointNames = names := by
  obtain rfl | ⟨-, rfl⟩ | ⟨_, _, _, _, _, rfl, rfl⟩ := ofSampler_cases h <;> rfl

end Placement

namespace PointTable

variable {t : PointTable S} {point : String} {a : Action S}

theorem check_sample {points args : List String} {sampler : String}
    (h : t.check (.sample points sampler args) = .ok a) :
    t.fresh points = .ok () ∧ ∃ s p, Sampler.ofId sampler args = .ok s ∧
      Placement.ofSampler s points = .ok p ∧ a = .place p := by
  obtain ⟨s, hs, h⟩ := bind_eq_ok.mp h
  obtain ⟨_, hfresh, h⟩ := bind_eq_ok.mp h
  obtain ⟨p, hp, h⟩ := bind_eq_ok.mp h
  cases h
  exact ⟨hfresh, s, p, hs, hp, rfl⟩

theorem check_compute {c : Computation} (h : t.check (.compute point c) = .ok a) :
    t.fresh [point] = .ok () ∧
      ((∃ k, a = .construct point k) ∨ ∃ l m, a = .intersect point l m) := by
  obtain ⟨kind, -, h⟩ := bind_eq_ok.mp h
  obtain ⟨_, hfresh, h⟩ := bind_eq_ok.mp h
  refine ⟨hfresh, ?_⟩
  split_ifs at h
  · unfold intersection at h
    split at h
    · obtain ⟨_, -, h⟩ := bind_eq_ok.mp h
      obtain ⟨_, -, h⟩ := bind_eq_ok.mp h
      cases h
      exact .inr ⟨_, _, rfl⟩
    · cases h
  · obtain ⟨_, -, h⟩ := bind_eq_ok.mp h
    split at h <;> cases h
    exact .inl ⟨_, rfl⟩

theorem check_parameterize {id : String} (h : t.check (.parameterize point id) = .ok a) :
    t.fresh [point] = .ok () ∧ a = .place (.free [point]) := by
  obtain ⟨_, -, h⟩ := bind_eq_ok.mp h
  obtain ⟨_, hfresh, h⟩ := bind_eq_ok.mp h
  cases h
  exact ⟨hfresh, rfl⟩

/-- The points of an instruction are checked to be new, and its action defines them. -/
theorem check_targets [Number R] {i : Instruction} (h : t.check i = .ok a) :
    t.fresh i.targets = .ok () ∧ (a.outline : Outline R).points = i.targets := by
  cases i with
  | sample points sampler args =>
      obtain ⟨hfresh, s, p, -, hp, rfl⟩ := check_sample h
      exact ⟨hfresh, Placement.ofSampler_pointNames hp⟩
  | compute point c =>
      obtain ⟨hfresh, ⟨k, rfl⟩ | ⟨l, m, rfl⟩⟩ := check_compute h <;> exact ⟨hfresh, rfl⟩
  | parameterize point id =>
      obtain ⟨hfresh, rfl⟩ := check_parameterize h
      exact ⟨hfresh, rfl⟩
  | assert c =>
      obtain ⟨-, kind, points, r, -, -, -, -, rfl⟩ := constraint_eq_ok.mp h
      exact ⟨rfl, rfl⟩

end PointTable

/-- The residuals of an assertion count one together. -/
theorem Relation.sum_weights [Scalar S Float μ] (label : String) (r : Relation S) (m : μ) :
    Number.sum ((r.losses label m).1.map (·.2.weight)) = (1.0 : Float) := by
  have hweights : (r.losses label m).1.map (·.2.weight) = (r.lossWeights label).map (·.2) := by
    rw [← r.lossWeights_losses label m, List.map_map]
    rfl
  have hone : Number.sum [(1.0 : Float)] = 1.0 := by decide +kernel
  have htwo : Number.sum [1.0 / Number.ofNat 2, 1.0 / Number.ofNat 2] = (1.0 : Float) := by
    decide +kernel
  rw [hweights]
  cases r with
  | between x a b => exact htwo
  | _ => exact hone

theorem Relation.residual_losses [Number R] [Scalar S R μ] (label : String) (r : Relation S) (m : μ) :
    (r.losses label m).1.map (·.2.residual) = (r.residuals m).1 := by
  cases r <;> rfl

/-- What an instruction adds to the tables of a draft: the points it defines; an assertion its
residuals, which count one together; a sample perhaps residuals of its own. -/
def Instruction.Adds [Scalar S Float μ] (d : Draft S Float μ) :
    Instruction → Addition S Float → Prop
  | sample points _ _, x => x.pointNames = points
  | compute point _, x => ∃ p, x.points = [(point, p)] ∧ x.losses = []
  | parameterize point _, x => ∃ p, x.points = [(point, p)] ∧ x.losses = []
  | assert c, x => x.points = [] ∧ ∃ label r, d.points.constraint c = .ok (.relate label r) ∧
      x.losses.map (·.2.residual) = (r.residuals d.canvas.memory).1 ∧
      Number.sum (x.losses.map (·.2.weight)) = 1.0

namespace Draft

section Run

variable [Number R] [Uniform R] [Scalar S R μ] {d d' : Draft S R μ} {i : Instruction}
  {x : Addition S R}

theorem process_targets (h : process i d = (.ok x, d')) :
    d'.points = d.points.append x.points ∧ d'.losses = d.losses.append x.losses ∧
      d.points.fresh i.targets = .ok () ∧ x.pointNames = i.targets := by
  obtain ⟨a, c, hcheck, hrun, rfl⟩ := process_ok h
  obtain ⟨hfresh, htargets⟩ := PointTable.check_targets (R := R) hcheck
  exact ⟨rfl, rfl, hfresh, (Action.run_outline hrun).1.trans htargets⟩

theorem process_names (h : process i d = (.ok x, d')) :
    d'.points.names = d.points.names ++ i.targets := by
  obtain ⟨hpoints, -, -, hnames⟩ := process_targets h
  rw [hpoints, ← hnames]
  exact List.map_append

theorem process_nodup (hd : d.points.names.Nodup) (h : process i d = (.ok x, d')) :
    d'.points.names.Nodup := by
  obtain ⟨-, -, hfresh, -⟩ := process_targets h
  rw [process_names h]
  exact (PointTable.fresh_eq_ok hd).mp hfresh

theorem processAll_nodup {is : List Instruction} (hd : d.points.names.Nodup)
    (h : processAll is d = .ok d') : d'.points.names.Nodup := by
  induction is generalizing d with
  | nil =>
      cases h
      exact hd
  | cons i is ih =>
      unfold processAll at h
      split at h
      next hi => exact ih (process_nodup hd hi) h
      next => cases h

theorem attemptAll_names (hd : d.points.names.Nodup) (is : List Instruction) :
    (attemptAll is d).2.points.names =
        d.points.names ++ (attemptAll is d).1.flatMap Instruction.targets ∧
      (attemptAll is d).2.points.names.Nodup := by
  induction is generalizing d with
  | nil => exact ⟨(List.append_nil _).symm, hd⟩
  | cons i rest ih =>
      simp only [attemptAll, bind, StateT.bind]
      rcases hi : process i d with ⟨e | x, d₁⟩
      · -- the points are what they were
        obtain ⟨hpoints, -, -⟩ := process_refused hi
        rw [← hpoints] at hd ⊢
        exact ih hd
      · obtain ⟨hnames, hnodup⟩ := ih (process_nodup hd hi)
        refine ⟨hnames.trans ?_, hnodup⟩
        rw [process_names hi, List.append_assoc]
        rfl

end Run

section Finish

variable [Number R]

/-- Losses on all points come without points and variables. -/
theorem regularize_keeps (d : Draft S R μ) (label : String) (weight : R) (enough : Bool)
    (residual : List (Point S) → StateM μ S) :
    let d' := d.regularize label weight enough residual
    d'.points = d.points ∧ d'.canvas.vars = d.canvas.vars ∧ d'.canvas.draws = d.canvas.draws ∧
      d'.settings = d.settings := by
  unfold regularize
  split <;> exact ⟨rfl, rfl, rfl, rfl⟩

variable [Scalar S R μ] (d : Draft S R μ)

theorem finish_keeps :
    d.finish.points = d.points ∧ d.finish.canvas.vars = d.canvas.vars ∧
      d.finish.canvas.draws = d.canvas.draws ∧ d.finish.settings = d.settings := by
  obtain ⟨hpoints, hvars, hdraws, hsettings⟩ := regularize_keeps d "points-norm"
    d.settings.regularizePoints (0 < d.points.entries.length) Regularizer.meanNorm
  obtain ⟨hpoints', hvars', hdraws', hsettings'⟩ := regularize_keeps
    (d.regularize "points-norm" d.settings.regularizePoints (0 < d.points.entries.length)
      Regularizer.meanNorm)
    "points-distinct" _ (1 < d.points.entries.length) Regularizer.meanCloseness
  exact ⟨hpoints'.trans hpoints, hvars'.trans hvars, hdraws'.trans hdraws,
    hsettings'.trans hsettings⟩

theorem finish_points : d.finish.points = d.points := (finish_keeps d).1

theorem finish_vars : d.finish.canvas.vars = d.canvas.vars := (finish_keeps d).2.1

end Finish

section Double

variable [Scalar S Float μ] {d d' : Draft S Float μ} {i : Instruction} {x : Addition S Float}

theorem process_adds (h : process i d = (.ok x, d')) : i.Adds d x := by
  obtain ⟨a, c, hcheck, hrun, rfl⟩ := process_ok h
  obtain ⟨hpoints, hlosses, -⟩ := Action.run_outline hrun
  obtain ⟨-, htargets⟩ := PointTable.check_targets (R := Float) hcheck
  have hnames : x.pointNames = i.targets := hpoints.trans htargets
  have hpoint : ∀ {point : String}, x.pointNames = [point] → ∃ p, x.points = [(point, p)] := by
    intro point h
    obtain ⟨⟨_, p⟩, hp, rfl⟩ := List.map_eq_singleton_iff.mp h
    exact ⟨p, hp⟩
  have hnone : (a.outline : Outline Float).losses = [] → x.losses = [] :=
    fun h => List.map_eq_nil_iff.mp (hlosses.trans h)
  cases i with
  | sample points sampler args => exact hnames
  | compute point c =>
      obtain ⟨p, hp⟩ := hpoint hnames
      obtain ⟨-, ⟨k, rfl⟩ | ⟨l, m, rfl⟩⟩ := PointTable.check_compute hcheck <;>
        exact ⟨p, hp, hnone rfl⟩
  | parameterize point id =>
      obtain ⟨p, hp⟩ := hpoint hnames
      obtain ⟨-, rfl⟩ := PointTable.check_parameterize hcheck
      exact ⟨p, hp, hnone rfl⟩
  | assert c =>
      obtain ⟨-, _, _, r, -, -, -, -, rfl⟩ := PointTable.constraint_eq_ok.mp hcheck
      cases hrun
      exact ⟨rfl, _, r, hcheck, r.residual_losses _ _, r.sum_weights _ _⟩

/-- Whatever instructions are tried one after the other on a canvas, the points that are there in the
end are those that the instructions define which were carried out, in order and under different
names; so the positions that the index tells are those of the names, and looking a name up finds
the entry with that name, if there is one. An instruction that is carried out adds to the end of
the tables, and to the index, what it has to add, and leaves all else; one that is refused leaves
the tables as they are. The coordinates of a finished draft are listed by increasing names, point
by point, whatever values the variables have. -/
theorem attemptAll_tables (canvas : Canvas Float μ) (settings : DraftSettings Float)
    (is : List Instruction) :
    let start : Draft S Float μ := { canvas, settings }
    let d := (attemptAll is start).2
    (d.points.names = (attemptAll is start).1.flatMap Instruction.targets ∧ d.points.names.Nodup) ∧
    (∀ name,
      (∀ i : Nat, d.points.indexed.index[name]? = some i ↔ d.points.names[i]? = some name) ∧
      d.points.indexed.get? name = d.points.get? name ∧
      d.points.indexed.contains name = d.points.contains name ∧
      (d.points.contains name = true ↔ name ∈ d.points.names) ∧
      (∀ p, d.points.get name = .ok p ↔ (name, p) ∈ d.points.entries) ∧
      ∀ e, d.points.get name = .error e ↔ e = .undefinedPoint name ∧ name ∉ d.points.names) ∧
    (∀ i,
      match process i d with
      | (.ok x, d') => d'.points.entries = d.points.entries ++ x.points ∧
          d'.losses.entries = d.losses.entries ++ x.losses ∧
          d'.points.indexed = d.points.indexed.insertAll x.points ∧ i.Adds d x
      | (.error _, d') => d'.points = d.points ∧ d'.losses = d.losses) ∧
    ∀ c : Canvas Float μ,
      let finished := { d.finish with canvas := c }
      NameMap.Ordered finished.resolve ∧
      List.Perm finished.resolve
        (d.points.entries.map fun (name, p) => (name, p.read c.memory c.assignment)) := by
  intro start d
  obtain ⟨hnames, hnodup⟩ := attemptAll_names (d := start) .nil is
  have hindex := PointTable.indexed_represents hnodup
  refine ⟨⟨hnames, hnodup⟩, fun name => ⟨hindex.index name, hindex.get?_eq name,
    hindex.contains_eq name, PointTable.mem_names_iff.symm, fun p => ?_,
    PointTable.get_eq_error⟩, fun i => ?_, fun c => ?_⟩
  · rw [PointTable.get_eq_ok]
    exact PointTable.get?_eq_some_iff hnodup
  · split
    next hi =>
      obtain ⟨hpoints, hlosses, -, -⟩ := process_targets hi
      rw [hpoints, hlosses]
      exact ⟨rfl, rfl, PointTable.indexed_append .., process_adds hi⟩
    next hi =>
      obtain ⟨hpoints, hlosses, -⟩ := process_refused hi
      exact ⟨hpoints, hlosses⟩
  · have hresolve : ({ d.finish with canvas := c } : Draft S Float μ).resolve =
        NameMap.ofEntries
          (d.points.entries.map fun (name, p) => (name, p.read c.memory c.assignment)) := by
      rw [resolve, finish_points]
      rfl
    dsimp only
    rw [hresolve]
    refine ⟨NameMap.ofEntries_ordered _, NameMap.ofEntries_perm ?_⟩
    rw [List.map_map]
    exact hnodup

/-- A name that is taken is refused. -/
example :
    let is : List Instruction :=
      [.sample ["B"] "uniform" [], .sample ["A", "B"] "uniform" [], .sample ["A"] "uniform" []]
    let start : Draft Float Float Unit :=
      { canvas := .start () (.constant 0.5), settings := .standard }
    (attemptAll is start).2.points.names = ["B", "A"] := by
  decide +kernel

end Double

end Draft

end PlaneFigure
