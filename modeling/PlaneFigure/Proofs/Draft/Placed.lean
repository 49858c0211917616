import PlaneFigure.Proofs.Draft.Sound
import PlaneFigure.Proofs.Draft.Tables
import PlaneFigure.Proofs.Placement.Values

/-!
Drafts on which names are placed. What a placement adds stands at the end of the tables, in the order
of the names, and has the values that the placement alone has.
-/

namespace PlaneFigure

variable {R : Type} [Number R] [Uniform R]

/-- An instruction is carried out on any draft with `k` variables that has no points of its names
yet. What it adds has these values when variable `i` has the value `ρ i`: formulas at any time,
numbers if that is its initial value. -/
structure Instruction.Places (i : Instruction) (k : Nat) (ρ : Nat → R) (y : Addition R R) : Prop where
  formulas (d : SymbolicDraft R) (hd : d.Sound) (hk : d.canvas.vars.size = k)
    (hnew : ∀ name ∈ i.targets, name ∉ d.points.names) :
    ∃ x d', Draft.process i d = (.ok x, d') ∧ d'.Sound ∧
      d'.positions ρ = (d.positions ρ).append y.points ∧
      d'.losses.map (d'.canvas.memory.value ρ) =
        (d.losses.map (d.canvas.memory.value ρ)).append y.losses
  numbers (d : Draft R R Unit) (hk : d.canvas.vars.size = k)
    (hnew : ∀ name ∈ i.targets, name ∉ d.points.names) :
    ∃ x d', Draft.process i d = (.ok x, d') ∧ (ρ ∈ d'.canvas.admitted →
      d'.points = d.points.append y.points ∧ d'.losses = d.losses.append y.losses)

namespace Draft

variable {S μ : Type} [Scalar S R μ]

/-- A sampler whose placement comes to its end. -/
theorem process_sample {names args : List String} {id : String} {s : Sampler} {p : Placement}
    (hs : Sampler.ofId id args = .ok s) (hp : Placement.ofSampler s names = .ok p)
    {d : Draft S R μ} (hfresh : d.points.fresh names = .ok ()) {x : Addition S R} {c : Canvas R μ}
    (hrun : p.place.run d.canvas = (.ok x, c)) :
    process (.sample names id args) d = (.ok x, { d.add x with canvas := c }) := by
  have hcheck : d.points.check (.sample names id args) = .ok (.place p) := by
    simp only [PointTable.check, hs, hfresh, hp, bind, Except.bind]
    rfl
  have haction : (Action.place p).run d.settings.degeneracy d.canvas = (.ok x, c) := by
    simp only [Action.run, bind, StateT.bind, hrun]
    rfl
  simp only [process, hcheck, haction]

end Draft

theorem Placement.Places.sample {names args : List String} {id : String} {s : Sampler}
    {p : Placement} {k : Nat} {ρ : Nat → R} {y : Addition R R} (h : p.Places k ρ y)
    (hs : Sampler.ofId id args = .ok s) (hp : Placement.ofSampler s names = .ok p)
    (hnames : names.Nodup) : (Instruction.sample names id args).Places k ρ y := by
  have hfresh : ∀ {S : Type} {t : PointTable S}, (∀ name ∈ names, name ∉ t.names) →
      t.fresh names = .ok () :=
    fun hnew => PointTable.fresh_go_eq_ok.mpr
      ⟨hnames, fun name hname => ⟨hnew name hname, List.not_mem_nil⟩⟩
  constructor
  · intro d hd hk hnew
    obtain ⟨x, c, hrun, hx⟩ := h.formulas d.canvas hd.graph hk
    have hi := Draft.process_sample hs hp (hfresh hnew) hrun
    obtain ⟨a, -, hcheck, -⟩ := Draft.process_ok hi
    obtain ⟨hsound, ⟨hle, -⟩, -⟩ := hd.process_ok hi hcheck
    refine ⟨x, _, hi, hsound, congrArg PointTable.mk ?_, congrArg LossTable.mk ?_⟩
    · have hnew := congrArg Addition.points hx
      have hold := hd.tables.points_eq hle (ρ := ρ)
      exact (List.map_append ..).trans (congrArg₂ (· ++ ·) hold hnew)
    · have hnew := congrArg Addition.losses hx
      have hold := hd.tables.losses_eq hle (ρ := ρ)
      exact (List.map_append ..).trans (congrArg₂ (· ++ ·) hold hnew)
  · intro d hk hnew
    obtain ⟨x, c, hrun, hx⟩ := h.numbers d.canvas hk
    refine ⟨x, _, Draft.process_sample hs hp (hfresh hnew) hrun, fun hρ => ?_⟩
    obtain rfl := hx hρ
    exact ⟨rfl, rfl⟩

end PlaneFigure
