import PlaneFigure.Proofs.Number.Real
import PlaneFigure.Proofs.Simulation.Draft

/-!
What is seen of a draft. Drafts on numbers and drafts that record formulas cannot be told apart by
it, whatever instructions they were made from.
-/

namespace PlaneFigure

/-- The names of the points, the losses with the values of their residuals, the variables, the
coordinates of the points and the weighted sum of the squared residuals. -/
structure Reading (R : Type) where
  names : List String
  losses : List (String × Loss R R)
  vars : Array (Variable R)
  coordinates : NameMap (Point R)
  total : R

/-- A draft at the current values of its variables. -/
def Draft.reading {S R μ : Type} [Number R] [Scalar S R μ] (d : Draft S R μ) : Reading R where
  names := d.points.names
  losses := d.losses.entries.map fun (name, l) => (name, ⟨d.canvas.value l.residual, l.weight⟩)
  vars := d.canvas.vars
  coordinates := d.resolve
  total :=
    let (x, d) := d.total
    d.canvas.value x

variable {R : Type} [Number R] {w : World R}

/-- Drafts in relation have the same reading. -/
theorem OnDraft.reading_eq {d : Draft (Formula R) R (Graph R)} {e : Draft R R Unit}
    (h : OnDraft w d e) : d.reading = e.reading := by
  have hpoints : Stands w d.points.entries e.points.entries := h.points.out
  have hlosses : Stands w d.losses.entries e.losses.entries := h.losses.out
  have htotal : ∀ {A}, Simulates (OnGraph A) w d.losses.total e.losses.total :=
    have : Stands w d.losses e.losses := h.losses
    .total
  obtain ⟨w', _, hcanvas, hstands⟩ := Simulates.lift htotal d.canvas e.canvas h.canvas
  have hnames : d.points.names = e.points.names := hpoints.map_eq fun _ _ hp => hp.out.1.out
  have hcoordinates : d.resolve = e.resolve := by
    refine congrArg NameMap.ofEntries (hpoints.map_eq fun p q hp => ?_)
    exact Prod.ext hp.out.1.out (h.canvas.point_eq hp.out.2)
  unfold Draft.reading
  -- what is left are losses, variables and the total
  congr 1
  · refine hlosses.map_eq fun l m hl => ?_
    obtain ⟨⟨hname⟩, ⟨hresidual, hweight⟩⟩ := hl.out
    exact Prod.ext hname (congrArg₂ Loss.mk (h.canvas.value_eq hresidual) hweight)
  · exact h.canvas.vars
  · exact hcanvas.value_eq hstands

namespace Draft

variable [Uniform R]

/-- Drafts in relation refuse the same first instruction for the same reason, or stay related. -/
theorem processAll_simulates [hw : w.Symmetric] (is : List Instruction)
    {d : Draft (Formula R) R (Graph R)} {e : Draft R R Unit} (h : OnDraft w d e) :
    (∃ err, processAll is d = .error err ∧ processAll is e = .error err) ∨
      ∃ w' d' e', processAll is d = .ok d' ∧ processAll is e = .ok e' ∧ OnDraft w' d' e' := by
  induction is generalizing w d e with
  | nil => exact .inr ⟨w, d, e, rfl, rfl, h⟩
  | cons i is ih =>
      obtain ⟨w', hle, h', hresult⟩ := Simulates.process i d e h
      have : Later w w' := ⟨hle⟩
      have hw' : w'.Symmetric := .later
      unfold processAll
      generalize process i d = rd at h' hresult ⊢
      generalize process i e = re at h' hresult ⊢
      obtain ⟨rd, d'⟩ := rd
      obtain ⟨re, e'⟩ := re
      obtain ⟨err, rfl, rfl⟩ | ⟨a, b, rfl, rfl, _⟩ := hresult.except_cases
      · exact .inl ⟨err, rfl, rfl⟩
      · exact ih h'

/-- Whether formulas are recorded or numbers are computed makes no difference: with the same
settings and initial values, the same instructions are refused with the same error, or lead to
drafts with the same reading. -/
theorem reading_ofInstructions (hR : TrigSymmetry R) (initial : InitialValues R)
    (settings : DraftSettings R) (is : List Instruction) :
    (ofInstructions (Canvas.start Graph.empty initial) settings is :
        Except DraftError (Draft (Formula R) R (Graph R))).map reading =
      (ofInstructions (Canvas.start () initial) settings is :
        Except DraftError (Draft R R Unit)).map reading := by
  let start : World R := ⟨Graph.empty, Graph.empty_wellFormed,
    (Canvas.start (Graph.empty (R := R)) initial).admitted⟩
  have : start.Symmetric := ⟨fun _ => hR⟩
  have hstart : OnDraft start ⟨Canvas.start Graph.empty initial, settings, {}, {}⟩
      ⟨Canvas.start () initial, settings, {}, {}⟩ :=
    ⟨⟨rfl, (Set.inter_univ _).symm, ⟨0, rfl, rfl⟩, rfl, rfl⟩, rfl, ⟨⟨.nil⟩⟩, ⟨⟨.nil⟩⟩⟩
  unfold ofInstructions
  obtain ⟨err, hd, he⟩ | ⟨w, d, e, hd, he, h⟩ := processAll_simulates is hstart
  · rw [hd, he]
    rfl
  · rw [hd, he]
    obtain ⟨w', h'⟩ := h.finish
    exact congrArg Except.ok h'.reading_eq

/-- A triangle with random sides, its orthocenter, and an altitude. -/
theorem reading_altitude :
    (ofInstructions (Canvas.start Graph.empty (.uniform 7)) .standard
        [.sample ["A", "B", "C"] "polygon" [],
          .compute "H" ⟨"orthocenter", [.point "A", .point "B", .point "C"]⟩,
          .assert ⟨"perp", ["A", "H", "B", "C"], false⟩] :
        Except DraftError (Draft (Formula ℝ) ℝ (Graph ℝ))).map reading =
      (ofInstructions (Canvas.start () (.uniform 7)) .standard
        [.sample ["A", "B", "C"] "polygon" [],
          .compute "H" ⟨"orthocenter", [.point "A", .point "B", .point "C"]⟩,
          .assert ⟨"perp", ["A", "H", "B", "C"], false⟩] :
        Except DraftError (Draft ℝ ℝ Unit)).map reading :=
  reading_ofInstructions ⟨neg_neg, Real.sin_neg, Real.cos_neg⟩ _ _ _

end Draft

end PlaneFigure
