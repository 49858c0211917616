import PlaneFigure.Proofs.Draft.Assertion
import PlaneFigure.Proofs.Draft.Outline
import PlaneFigure.Proofs.Draft.Sound
import PlaneFigure.Proofs.Graph.Division
import PlaneFigure.Proofs.Placement.Granted

/-!
When a draft is solved. In exact arithmetic, its total loss is a sum of squares with positive
weights, one for each residual; so it is zero just where all residuals are, and the residuals of the
constraints are zero just where the constraints hold.
-/

namespace PlaneFigure

open Exact

/-! ### Sums of squares -/

namespace LossTable

variable {l : List (String × Loss Exact Exact)}

/-- The weights of losses that count. -/
def Positive (l : List (String × Loss Exact Exact)) : Prop :=
  ∀ e ∈ l, ∃ w : ℝ, 0 < w ∧ e.2.weight = real w

/-- What is added to something undefined stays undefined. -/
theorem foldl_undefined (l : List Exact) : l.foldl (· + ·) undefined = undefined := by
  induction l with
  | nil => rfl
  | cons a l ih => exact ih

/-- Squares with positive weights add up to nothing only if they are all zero. -/
theorem foldl_squares (hl : Positive l) {s x : ℝ}
    (h : (l.map fun e => e.2.residual * e.2.residual * e.2.weight).foldl (· + ·) (real s) = real x) :
    s ≤ x ∧ (x = s ↔ ∀ e ∈ l, e.2.residual = real 0) := by
  -- the bound is what has been added up so far, so it changes with every summand
  induction l generalizing s with
  | nil =>
      cases h
      exact ⟨le_refl _, fun _ => nofun, fun _ => rfl⟩
  | cons e l ih =>
      obtain ⟨⟨w, hw, hweight⟩, hl⟩ := List.forall_mem_cons.mp hl
      rw [List.map_cons, List.foldl_cons, hweight] at h
      cases hr : e.2.residual with
      | undefined =>
          rw [hr] at h
          cases (foldl_undefined _).symm.trans h
      | real u =>
          rw [hr, real_mul, real_mul, real_add] at h
          obtain ⟨hle, hiff⟩ := ih hl h
          have hsquare : 0 ≤ u * u * w := mul_nonneg (mul_self_nonneg u) hw.le
          refine ⟨by linarith, ?_⟩
          rw [List.forall_mem_cons, hr, real.injEq]
          constructor
          · intro hx
            have hzero : u * u * w = 0 := by linarith
            have hu : u = 0 := mul_self_eq_zero.mp ((mul_eq_zero.mp hzero).resolve_right hw.ne')
            exact ⟨hu, hiff.mp (by rw [hx, hzero, add_zero])⟩
          · rintro ⟨rfl, hzero⟩
            rw [hiff.mpr hzero]
            ring

/-- The total is the sum of the weighted squares. -/
theorem total_eq (t : LossTable Exact Exact) :
    calculate t.total =
      (t.entries.map fun e => e.2.residual * e.2.residual * e.2.weight).foldl (· + ·) (real 0) := by
  have hadd : ∀ y : Exact, real 0 + y = y := by
    intro y
    cases y with
    | undefined => rfl
    | real v => rw [real_add, zero_add]
  rw [calculate_total]
  -- an empty sum is a constant, and any other begins with its first summand instead of zero
  cases t.entries.map fun e => e.2.residual * e.2.residual * e.2.weight with
  | nil =>
      exact literal_zero
  | cons y ys => rw [calculate_sum_cons, List.foldl_cons, hadd]

/-- A sum is defined where all summands are. -/
theorem isReal_foldl {a : Exact} {l : List Exact} :
    (l.foldl (· + ·) a).IsReal ↔ a.IsReal ∧ ∀ b ∈ l, b.IsReal := by
  induction l generalizing a with
  | nil => simp
  | cons b l ih => rw [List.foldl_cons, ih, isReal_add, List.forall_mem_cons, and_assoc]

/-- The total is defined just where all residuals are. -/
theorem isReal_total {t : LossTable Exact Exact} (ht : Positive t.entries) :
    (calculate t.total).IsReal ↔ ∀ e ∈ t.entries, e.2.residual.IsReal := by
  rw [total_eq, isReal_foldl, and_iff_right isReal_real, List.forall_mem_map]
  refine forall₂_congr fun e he => ?_
  obtain ⟨w, -, hw⟩ := ht e he
  rw [isReal_mul, isReal_mul, hw, and_self, and_iff_left isReal_real]

/-- A total that is defined is not negative, and zero only if all residuals are. -/
theorem total_eq_real {t : LossTable Exact Exact} (ht : Positive t.entries) {x : ℝ}
    (h : calculate t.total = real x) :
    0 ≤ x ∧ (x = 0 ↔ ∀ e ∈ t.entries, e.2.residual = real 0) :=
  foldl_squares ht (t.total_eq ▸ h)

end LossTable

/-! ### Where losses come from -/

theorem Relation.values_eq {R : Type} [Number R] (label : String) (r : Relation R) :
    (calculate (r.losses label)).map (·.2.residual) = r.values := by
  cases r <;> rfl

namespace Draft

variable {R : Type} [Number R] [Uniform R] {i : Instruction} {x : Addition (Formula R) R}
  {d : SymbolicDraft R}

/-- The losses of a constraint are its residuals between the points in their positions. -/
theorem CarriedOut.assert {c : Constraint} (h : CarriedOut (.assert c) x d) (ρ : Nat → R) :
    ∃ label r, (d.positions ρ).constraint c = .ok (.relate label r) ∧
      x.lossWeights = r.lossWeights label ∧ (∀ e ∈ x.losses, e ∈ d.losses.entries) ∧
      x.losses.map (fun e => d.canvas.memory.value ρ e.2.residual) = r.values := by
  obtain ⟨t, a, hcheck, hearlier, hweights, hmem, hreads⟩ := h.reads ρ
  obtain ⟨-, _, _, r, -, -, -, -, rfl⟩ := PointTable.constraint_eq_ok.mp hcheck
  obtain ⟨hvalue, -⟩ := hreads nofun
  refine ⟨_, r, PointTable.constraint_of_prefix hearlier hcheck, hweights, hmem, ?_⟩
  calc x.losses.map (fun e => d.canvas.memory.value ρ e.2.residual)
      = (x.map (d.canvas.memory.value ρ)).losses.map (·.2.residual) := by
        rw [Addition.map, List.map_map]
        rfl
    _ = (calculate (r.losses _)).map (·.2.residual) := by rw [hvalue]; rfl
    _ = r.values := r.values_eq _

/-- Losses come from placements or from constraints. -/
theorem CarriedOut.lossWeights (h : CarriedOut i x d) :
    (∃ p : Placement, x.lossWeights = p.lossWeights) ∨ ∃ c, i = .assert c := by
  obtain ⟨t, a, hcheck, -, hweights, -⟩ := h.reads fun _ => 0.0
  cases a with
  | place p => exact .inl ⟨p, hweights⟩
  | construct name k => exact .inl ⟨.free [], hweights⟩
  | intersect name l m => exact .inl ⟨.free [], hweights⟩
  | relate label r =>
      obtain ⟨c, hc, -⟩ := PointTable.check_eq_relate hcheck
      exact .inr ⟨c, hc⟩

/-! ### The total -/

omit [Uniform R] in
/-- The total loss when variable `i` has the value `ρ i`. -/
def totalAt (ρ : Nat → R) (d : SymbolicDraft R) : R :=
  let r := (total : StateM (SymbolicDraft R) (Formula R)) d
  r.2.canvas.memory.value ρ r.1

omit [Uniform R] in
/-- The total loss is recorded beside the formulas that are there, and its value is computed from
those of the residuals. -/
theorem Sound.total_run (h : d.Sound) (ρ : Nat → R) :
    let r := (total : StateM (SymbolicDraft R) (Formula R)) d
    d.canvas.memory ≤ r.2.canvas.memory ∧ r.2.canvas.memory.value ρ r.1 =
      calculate (d.losses.map (d.canvas.memory.value ρ)).total := by
  have hlosses : Stands (⟨d.canvas.memory, h.graph, {ρ}⟩ : World R) d.losses
      (d.losses.map (d.canvas.memory.value ρ)) :=
    ⟨h.tables.losses_stand h.graph⟩
  have hrun : Simulates (OnGraph (World.basis ⟨d.canvas.memory, h.graph, {ρ}⟩))
      ⟨d.canvas.memory, h.graph, {ρ}⟩ d.losses.total
      (d.losses.map (d.canvas.memory.value ρ)).total := .total
  exact hrun.value_eq

omit [Uniform R] in
theorem Sound.totalAt_eq (h : d.Sound) (ρ : Nat → R) :
    d.totalAt ρ = calculate (d.losses.map (d.canvas.memory.value ρ)).total :=
  (h.total_run ρ).2

end Draft

theorem Placement.lossWeights_positive (p : Placement) :
    ∀ e ∈ (p.lossWeights : List (String × Exact)), ∃ w : ℝ, 0 < w ∧ e.2 = real w := by
  have htenth : (0.1 : Exact) = real 10⁻¹ := by norm_num
  have hhundredth : (0.01 : Exact) = real 100⁻¹ := by norm_num
  cases p with
  | polygon names =>
      rw [← List.forall_iff_forall_mem]
      exact ⟨⟨_, by norm_num, htenth⟩, ⟨_, by norm_num, hhundredth⟩, ⟨_, by norm_num, hhundredth⟩⟩
  | _ => exact nofun

theorem Relation.lossWeights_positive (label : String) (r : Relation Exact) :
    ∀ e ∈ (r.lossWeights label : List (String × Exact)), ∃ w : ℝ, 0 < w ∧ e.2 = real w := by
  have hhalf : (1.0 / Number.ofNat 2 : Exact) = real (1 / (2 : ℕ)) := by
    rw [literal_one]
    exact real_div (by norm_num)
  rw [← List.forall_iff_forall_mem]
  cases r with
  | between p a b => exact ⟨⟨_, by norm_num, hhalf⟩, ⟨_, by norm_num, hhalf⟩⟩
  | _ => exact ⟨1, one_pos, literal_one⟩

/-- In exact arithmetic, real numbers in order will do. -/
theorem Range.sound_exact {r : Range Exact} {x y : ℝ} (hlow : r.low = -real x)
    (hhigh : r.high = real y) (h : -x ≤ y) : r.Sound := by
  obtain ⟨low, high⟩ := r
  cases hlow
  cases hhigh
  have hlt : Number.lt (real y) (real (-x)) = false := Bool.eq_false_iff.mpr (mt real_lt.mp h.not_gt)
  exact ⟨congrArg not hlt, rfl⟩

instance : Range.AllSound Exact where
  unit := Range.sound_exact (congrArg Neg.neg literal_one) literal_one (by norm_num)
  half := by
    have hhalf : (0.5 : Exact) = real 2⁻¹ := by norm_num
    exact Range.sound_exact (congrArg Neg.neg hhalf) hhalf (by norm_num)
  apex := by
    have hhigh : (1.2 : Exact) = real (6 / 5) := by norm_num
    exact Range.sound_exact (congrArg Neg.neg literal_one) hhigh (by norm_num)

namespace Draft

/-- The names of the losses that polygons leave. -/
def polygonLosses : List String :=
  ["polygon-angle-sum", "polygon-first-eq-last", "polygon-first-angle-eq-sampled"]

theorem CarriedOut.positive {i : Instruction} {x : Addition (Formula Exact) Exact}
    {d : SymbolicDraft Exact} (h : CarriedOut i x d) :
    ∀ e ∈ x.losses, ∃ w : ℝ, 0 < w ∧ e.2.weight = real w := by
  have hweights : ∀ e ∈ x.lossWeights, ∃ w : ℝ, 0 < w ∧ e.2 = real w := by
    obtain ⟨p, hp⟩ | ⟨c, rfl⟩ := h.lossWeights
    · rw [hp]
      exact p.lossWeights_positive
    · obtain ⟨label, r, -, hr, -⟩ := h.assert fun _ => undefined
      rw [hr]
      exact r.lossWeights_positive label
  exact fun e he => hweights _ (List.mem_map_of_mem he)

variable {is : List Instruction} {d d' : SymbolicDraft Exact}

/-- The losses of a run count, and are those of polygons and of constraints. -/
theorem Sound.losses_of_run (ρ : Nat → Exact) (h : d.Sound) (hempty : d.losses.entries = [])
    (hrun : processAll is d = .ok d') :
    LossTable.Positive (d'.losses.map (d'.canvas.memory.value ρ)).entries ∧
      ∀ e ∈ d'.losses.entries, e.1 ∈ polygonLosses ∨ ∃ c, .assert c ∈ is ∧
        ∃ label r, (d'.positions ρ).constraint c = .ok (.relate label r) ∧
          d'.canvas.memory.value ρ e.2.residual ∈ r.values := by
  obtain ⟨-, -, -, hlosses⟩ := h.processAll_ok hrun
  rw [hempty] at hlosses
  constructor
  · refine List.forall_mem_map.mpr fun e he => ?_
    obtain hold | ⟨i, -, x, hx, hex⟩ := hlosses e he
    · cases hold
    · exact hx.positive e hex
  · intro e he
    obtain hold | ⟨i, hi, x, hx, hex⟩ := hlosses e he
    · cases hold
    obtain ⟨p, hp⟩ | ⟨c, rfl⟩ := hx.lossWeights
    · -- a placement with losses is that of a polygon, and the names of these are known
      refine .inl ?_
      have hname : (e.1, e.2.weight) ∈ x.lossWeights := List.mem_map_of_mem hex
      rw [hp] at hname
      cases p with
      | polygon names => exact List.mem_map_of_mem (f := Prod.fst) hname
      | free names => cases hname
      | triangle _ _ _ _ _ => cases hname
    · obtain ⟨label, r, hc, -, -, hvalues⟩ := hx.assert ρ
      exact .inr ⟨c, hi, label, r, hc, hvalues ▸ List.mem_map_of_mem hex⟩

/-- Nothing is added at the end if no loss on all points counts. -/
theorem finish_eq {S R μ : Type} [Number R] [Scalar S R μ] {d : Draft S R μ}
    (hpoints : Number.lt 0.0 d.settings.regularizePoints = false)
    (hdistinct : Number.lt 0.0 d.settings.makeDistinct = false) : d.finish = d := by
  have hnone : ∀ label weight enough (residual : List (Point S) → StateM μ S),
      Number.lt 0.0 weight = false → d.regularize label weight enough residual = d := by
    intro label weight enough residual hweight
    rw [regularize, hweight]
    rfl
  dsimp only [finish]
  rw [hnone _ _ _ _ hpoints, hnone _ _ _ _ hdistinct]

/-- Under the standard settings, the draft is what the instructions lead to. -/
theorem ofInstructions_standard {canvas : Canvas Exact (Graph Exact)}
    (hrun : processAll is ⟨canvas, .standard, {}, {}⟩ = .ok d) :
    ofInstructions canvas .standard is = .ok d := by
  have hsettings : d.settings = .standard := processAll_settings hrun
  have hsilent : Number.lt 0.0 (0.0 : Exact) = false := by simp [Number.lt, test]
  have hfinish : d.finish = d := by
    apply finish_eq <;> rw [hsettings] <;> exact hsilent
  refine bind_eq_ok.mpr ⟨d, hrun, ?_⟩
  rw [hfinish]
  rfl

/-- What is placed first is all that there is in a draft. -/
theorem processAll_place {i : Instruction} {placement : Placement}
    {canvas canvas' : Canvas Exact (Graph Exact)} {points : List (String × Point (Formula Exact))}
    (hcheck : ({} : PointTable (Formula Exact)).check i = .ok (.place placement))
    (hplace : placement.place.run canvas = (.ok { points }, canvas')) :
    processAll (i :: is) ⟨canvas, .standard, {}, {}⟩ =
      processAll is ⟨canvas', .standard, ⟨points⟩, {}⟩ := by
  simp only [processAll, process, hcheck, Action.run, bind, StateT.bind, hplace]
  rfl

/-! ### Three free points -/

/-- Initial values for which three points are corners of a square. -/
noncomputable def corners : Draws Exact :=
  ((Draws.start (.constant (real 0))).pin "Bx" (real 1)).pin "Cy" (real 1)

/-- Three points, each with variables for its coordinates. -/
noncomputable def triangle : SymbolicDraft Exact where
  canvas :=
    { memory := ⟨#[.var 0, .var 1, .var 2, .var 3, .var 4, .var 5]⟩
      vars := #[⟨"Ax", .unit, real 0⟩, ⟨"Ay", .unit, real 0⟩, ⟨"Bx", .unit, real 1⟩,
        ⟨"By", .unit, real 0⟩, ⟨"Cx", .unit, real 0⟩, ⟨"Cy", .unit, real 1⟩]
      draws := corners }
  settings := .standard
  points := ⟨[("A", ⟨⟨0⟩, ⟨1⟩⟩), ("B", ⟨⟨2⟩, ⟨3⟩⟩), ("C", ⟨⟨4⟩, ⟨5⟩⟩)]⟩

theorem processAll_triangle (is : List Instruction) :
    processAll (.sample ["A", "B", "C"] "uniform" [] :: is)
      ⟨{ memory := Graph.empty, draws := corners }, .standard, {}, {}⟩ = processAll is triangle := by
  have hplace : (Placement.free ["A", "B", "C"]).place.run
      { memory := Graph.empty, draws := corners } =
        (.ok { points := triangle.points.entries }, triangle.canvas) := by
    simp only [Placement.place, Placement.freePoints, Placement.freePoint, List.mapM_cons,
      List.mapM_nil, bind_assoc, pure_bind, Canvas.run_sample_bind _ Range.AllSound.unit]
    rfl
  exact processAll_place rfl hplace

theorem triangle_sound : triangle.Sound :=
  ((Sound.start _ _).processAll_ok (processAll_triangle [])).1

/-! ### Solved drafts -/

/-- The total loss is defined just where all residuals are. -/
theorem Sound.isReal_totalAt_iff {σ : Nat → Exact} (h : d.Sound)
    (hpositive : LossTable.Positive (d.losses.map (d.canvas.memory.value σ)).entries) :
    (d.totalAt σ).IsReal ↔
      ∀ e ∈ d.losses.entries, (d.canvas.memory.value σ e.2.residual).IsReal := by
  rw [h.totalAt_eq, LossTable.isReal_total hpositive]
  exact List.forall_mem_map

/-- Where no divisor vanishes and no radicand is negative, the total loss is defined. -/
theorem Sound.isReal_totalAt {ρ : Nat → ℝ} (h : d.Sound)
    (hpositive : LossTable.Positive
      (d.losses.map (d.canvas.memory.value fun i => real (ρ i))).entries)
    (hdiv : d.canvas.memory.Divisible fun i => real (ρ i))
    (hroots : d.canvas.memory.Extractable fun i => real (ρ i)) :
    (d.totalAt fun i => real (ρ i)).IsReal := by
  exact (h.isReal_totalAt_iff hpositive).mpr fun e he =>
    hdiv.isReal hroots h.graph (h.tables.losses e he)

/-- In exact arithmetic, if no other losses are asked for, the total loss is defined for all values
of the variables for which no divisor vanishes and no radicand is negative. Wherever it is defined, it
is not negative, and it is zero just where all constraints hold and the polygons are as they were
drawn. -/
theorem total_eq_zero_iff (draws : Draws Exact) (settings : DraftSettings Exact)
    (is : List Instruction) (d : SymbolicDraft Exact) (ρ : Nat → ℝ)
    (hpoints : Number.lt 0.0 settings.regularizePoints = false)
    (hdistinct : Number.lt 0.0 settings.makeDistinct = false)
    (hd : ofInstructions { memory := Graph.empty, draws } settings is = .ok d) :
    let σ : Nat → Exact := fun i => real (ρ i)
    (d.canvas.memory.Divisible σ → d.canvas.memory.Extractable σ → (d.totalAt σ).IsReal) ∧
      ∀ x : ℝ, d.totalAt σ = real x → 0 ≤ x ∧
        (x = 0 ↔ (∀ c, .assert c ∈ is → c.HoldsIn (d.positions σ)) ∧
          ∀ e ∈ d.losses.entries, e.1 ∈ polygonLosses →
            d.canvas.memory.value σ e.2.residual = real 0) := by
  intro σ
  obtain ⟨d', hrun, hfinish⟩ := bind_eq_ok.mp hd
  have hsettings : d'.settings = settings := processAll_settings hrun
  -- without losses on all points, the draft is what the instructions lead to
  obtain rfl : d' = d := by
    rw [pure_eq_ok, finish_eq (hsettings ▸ hpoints) (hsettings ▸ hdistinct)] at hfinish
    exact hfinish
  have hstart := Sound.start draws settings
  obtain ⟨hsound, -, hcarried, -⟩ := hstart.processAll_ok hrun
  obtain ⟨hpositive, hcases⟩ := hstart.losses_of_run σ rfl hrun
  refine ⟨hsound.isReal_totalAt hpositive, fun x hx => ?_⟩
  rw [hsound.totalAt_eq] at hx
  obtain ⟨hle, hiff⟩ := LossTable.total_eq_real hpositive hx
  refine ⟨hle, hiff.trans ?_⟩
  have hentries : (∀ e ∈ (d'.losses.map (d'.canvas.memory.value σ)).entries,
      e.2.residual = real 0) ↔
      ∀ e ∈ d'.losses.entries, d'.canvas.memory.value σ e.2.residual = real 0 :=
    List.forall_mem_map
  rw [hentries]
  constructor
  · intro hzero
    refine ⟨fun c hc => ?_, fun e he _ => hzero e he⟩
    obtain ⟨x, hx⟩ := hcarried _ hc
    obtain ⟨label, r, hr, -, hmem, hvalues⟩ := hx.assert σ
    refine Constraint.holdsIn_of_values hr ?_
    rw [← hvalues]
    exact List.forall_mem_map.mpr fun e he => hzero e (hmem e he)
  · rintro ⟨hconstraints, hpolygons⟩ e he
    obtain hname | ⟨c, hc, label, r, hr, hvalue⟩ := hcases e he
    · exact hpolygons e he hname
    · exact (hconstraints c hc).values_eq_zero hr _ hvalue

/-- Two sides of a triangle whose corners are three corners of a square. -/
theorem total_eq_zero_square :
    let is : List Instruction :=
      [.sample ["A", "B", "C"] "uniform" [], .assert ⟨"cong", ["A", "B", "B", "C"], false⟩]
    ∃ d : SymbolicDraft Exact,
      ofInstructions { memory := Graph.empty, draws := corners } .standard is = .ok d ∧
        (d.totalAt fun i => real ([0, 0, 1, 0, 1, 1].getD i 0)) = real 0 := by
  intro is
  let ρ : Nat → ℝ := fun i => [0, 0, 1, 0, 1, 1].getD i 0
  have hsilent : Number.lt 0.0 (0.0 : Exact) = false := by simp [Number.lt, test]
  obtain ⟨d, hrun, hquotients, hconst, hroots, hnames⟩ : ∃ d, processAll is.tail triangle = .ok d ∧
      (d.canvas.memory.nodes.toList.all fun node => !node.isQuotient) ∧
      d.canvas.memory.nodes.toList.filterMap Node.constant? = [] ∧
      (d.canvas.memory.nodes.toList.all fun node => !node.isRoot) ∧
      ∀ e ∈ d.losses.entries, e.1 ∉ polygonLosses :=
    ⟨_, rfl, rfl, rfl, rfl, List.forall_mem_singleton.mpr (by decide +kernel)⟩
  obtain ⟨-, hle, -⟩ := triangle_sound.processAll_ok hrun
  have hfound : ∀ {name p}, (triangle.positions fun i => real (ρ i)).get? name = some p →
      (d.positions fun i => real (ρ i)).get? name = some p :=
    PointTable.get?_of_prefix (triangle_sound.positions_prefix hle)
  have hd : ofInstructions { memory := Graph.empty, draws := corners } .standard is = .ok d :=
    ofInstructions_standard ((processAll_triangle _).trans hrun)
  obtain ⟨hreal, hzero⟩ := total_eq_zero_iff _ _ is d ρ hsilent hsilent hd
  obtain ⟨x, hx⟩ := hreal (.of_all hquotients (hconst ▸ List.forall_mem_nil _)) (.of_all hroots)
  have hiff := (hzero x hx).2
  refine ⟨d, hd, hx.trans (congrArg real (hiff.mpr ⟨fun c hmem => ?_, fun e he hname => ?_⟩))⟩
  · obtain rfl : c = ⟨"cong", ["A", "B", "B", "C"], false⟩ := by simpa [is] using hmem
    refine ⟨[⟨0, 0⟩, ⟨1, 0⟩, ⟨1, 0⟩, ⟨1, 1⟩], .cons (hfound rfl) (.cons (hfound rfl)
      (.cons (hfound rfl) (.cons (hfound rfl) .nil))), ?_⟩
    change dist _ _ = dist _ _
    rw [Point.dist_eq_dist_iff]
    norm_num [Point.quadrance]
  · exact (hnames e he hname).elim

/-! ### A right triangle without an apex -/

/-- A right triangle over the fixed base, with a given shift of its apex at the start. -/
noncomputable def rightTriangle (x : ℝ) : SymbolicDraft Exact where
  canvas :=
    { memory := ⟨#[.const (-2.0), .const 0.0, .const 2.0, .const 0.0, .var 0, .const 4.0,
        .binary .mul 4 4, .binary .sub 5 6, .unary .sqrt 7]⟩
      vars := #[⟨"tri_x", .apex, real x⟩]
      draws := .start (.constant (real x)) }
  settings := .standard
  points := ⟨[("A", ⟨⟨4⟩, ⟨8⟩⟩), ("B", ⟨⟨0⟩, ⟨1⟩⟩), ("C", ⟨⟨2⟩, ⟨3⟩⟩)]⟩

theorem processAll_rightTriangle (x : ℝ) (is : List Instruction) :
    processAll (.sample ["A", "B", "C"] "rightTri" ["A"] :: is)
      ⟨{ memory := Graph.empty, draws := .start (.constant (real x)) }, .standard, {}, {}⟩ =
        processAll is (rightTriangle x) := by
  have hlift : ∀ {α β : Type} (act : StateM (Graph Exact) β)
      (next : β → Canvas.Attempt Exact _ α) c,
      ((liftM act : Canvas.Attempt Exact _ β) >>= next).run c =
        (next (act c.memory).1).run { c with memory := (act c.memory).2 } :=
    fun _ _ _ => rfl
  have hplace : (Placement.triangle { right := some "A" } .first "A" "B" "C").place.run
      { memory := Graph.empty, draws := .start (.constant (real x)) } =
        (.ok { points := (rightTriangle x).points.entries }, (rightTriangle x).canvas) := by
    simp only [Placement.place, Placement.placeTriangle, Placement.apex, Placement.apexShift,
      Option.isSome_none, Bool.or_self, Bool.false_eq_true, if_false, bind_assoc, hlift,
      Canvas.run_sample_bind _ Range.AllSound.apex]
    rfl
  exact processAll_place rfl hplace

theorem rightTriangle_sound (x : ℝ) : (rightTriangle x).Sound :=
  ((Sound.start _ _).processAll_ok (processAll_rightTriangle x [])).1

/-- A right triangle has no apex beyond the ends of its base. There, the total loss is undefined
although no divisor vanishes, and even if no more is asked than that a side is as long as itself. -/
theorem total_undefined_rightTriangle :
    let is : List Instruction :=
      [.sample ["A", "B", "C"] "rightTri" ["A"], .assert ⟨"cong", ["A", "B", "A", "B"], false⟩]
    let σ : Nat → Exact := fun _ => real 3
    ∃ d : SymbolicDraft Exact,
      ofInstructions { memory := Graph.empty, draws := .start (.constant (real 3)) } .standard is =
          .ok d ∧
        d.canvas.memory.Divisible σ ∧ ¬ (d.totalAt σ).IsReal := by
  intro is σ
  obtain ⟨d, hrun, hquotients, hconst⟩ : ∃ d, processAll is.tail (rightTriangle 3) = .ok d ∧
      (d.canvas.memory.nodes.toList.all fun node => !node.isQuotient) ∧
      d.canvas.memory.nodes.toList.filterMap Node.constant? = [-2.0, 0.0, 2.0, 0.0, 4.0] :=
    ⟨_, rfl, rfl, rfl⟩
  have hd := (processAll_rightTriangle 3 is.tail).trans hrun
  refine ⟨d, ofInstructions_standard hd, .of_all hquotients ?_, fun hreal => ?_⟩
  · rw [hconst]
    simp only [List.forall_mem_cons]
    exact ⟨⟨_, rfl⟩, ⟨_, rfl⟩, ⟨_, rfl⟩, ⟨_, rfl⟩, ⟨_, rfl⟩, List.forall_mem_nil _⟩
  -- the square of the height would be negative
  have happex : Number.sqrt ((4.0 : Exact) - real 3 * real 3) = undefined := by
    have hfour : (4.0 : Exact) = real 4 := by norm_num
    rw [hfour, real_mul, real_sub]
    exact sqrt_of_neg (by norm_num)
  have hA : ((rightTriangle 3).positions σ).get? "A" = some ⟨real 3, undefined⟩ :=
    congrArg (fun y => some (Point.mk (real 3) y)) happex
  have htriangle := rightTriangle_sound 3
  obtain ⟨hsound, hle, hcarried, -⟩ := htriangle.processAll_ok hrun
  have hstart := Sound.start (.start (.constant (real 3))) .standard
  obtain ⟨hpositive, -⟩ := hstart.losses_of_run σ rfl hd
  rw [hsound.isReal_totalAt_iff hpositive] at hreal
  obtain ⟨x, hx⟩ := hcarried (.assert ⟨"cong", ["A", "B", "A", "B"], false⟩) (by decide)
  obtain ⟨label, r, hr, -, hmem, hvalues⟩ := hx.assert σ
  have hvalues' : ∀ v ∈ r.values, v.IsReal := by
    rw [← hvalues]
    exact List.forall_mem_map.mpr fun e he => hreal e (hmem e he)
  obtain ⟨p, hp, -, hy⟩ := Constraint.isReal_points hr hvalues' "A" (by decide)
  cases (PointTable.get?_of_prefix (htriangle.positions_prefix hle) hA).symm.trans hp
  exact not_isReal_undefined hy

end Draft

end PlaneFigure
