import PlaneFigure.Proofs.Draft.Solved
import PlaneFigure.Proofs.Draft.Verdict
import PlaneFigure.Proofs.Drawing.Variables
import PlaneFigure.Proofs.Descent.Decrease
import PlaneFigure.Proofs.Number.Sum

/-!
The total loss on doubles. It is there twice: as a scalar, which a descent lowers, and as a number,
added up from the values of the losses. Both are one sum from the left, but for the sign of zero; so
the loss that is reported at the end is what the reported losses add up to.
-/

namespace PlaneFigure

section

variable {R : Type} [Number R]

theorem calculate_sum (xs : List R) : calculate (Scalar.sum xs) = leftSum xs := by
  cases xs with
  | nil => rfl
  | cons x xs => exact calculate_sum_cons x xs

/-- The weighted squares as numbers, when variable `i` has the value `ρ i`. -/
def LossTable.terms {S μ : Type} [Scalar S R μ] (m : μ) (ρ : Nat → R) (t : LossTable S R) : List R :=
  t.entries.map fun (_, l) => l.weight * l.value m ρ

theorem LossTable.terms_map (t : LossTable (Formula R) R) (g : Graph R) (ρ σ : Nat → R) :
    (t.map (g.value ρ)).terms () σ = t.terms g ρ :=
  List.map_map ..

/-- Recorded losses keep their values when more is recorded. -/
theorem Draft.Sound.terms_eq {d : SymbolicDraft R} (h : d.Sound) {g : Graph R}
    (hle : d.canvas.memory ≤ g) (ρ : Nat → R) :
    d.losses.terms g ρ = d.losses.terms d.canvas.memory ρ := by
  rw [← LossTable.terms_map (σ := ρ), ← LossTable.terms_map (σ := ρ), LossTable.map, LossTable.map,
    h.tables.losses_eq hle]

/-- Variables that are all given values have them. -/
theorem Canvas.assignment_setAll {μ : Type} {c : Canvas R μ} {xs : Array R}
    (h : xs.size = c.vars.size) : (c.setAll xs).assignment = fun i => xs.getD i 0.0 := by
  funext i
  by_cases hi : i < c.vars.size
  · simp [assignment, setAll, hi, h]
  · simp [assignment, setAll, hi, h]

end

/-- On doubles, the weight may as well be the first factor. -/
theorem LossTable.calculate_total_eq (t : LossTable Float Float) (ρ : Nat → Float) :
    calculate t.total = leftSum (t.terms () ρ) := by
  rw [calculate_total, calculate_sum]
  exact congrArg leftSum (List.map_congr_left fun e _ => Double.mul_comm ..)

namespace Descent.Outcome

variable {o : Outcome Float}

theorem report_of_reached {n : Nat} {loss : Float} (h : o.reached? = some (n, loss)) :
    o.report.finalLoss = loss := by
  cases o <;> cases h <;> rfl

theorem report_of_not_reached (h : o.reached? = none) : o.report.finalLoss.isNaN = true := by
  cases o <;> cases h
  rfl

end Descent.Outcome

namespace Draft

/-- The total loss as a scalar has the value of the total loss as a number, whatever the values of
the variables, and both are the sum of the weighted squares from the left: the scalar to the last
bit, the number up to the sign of zero. -/
def TotalsAgree {S μ : Type} [Scalar S Float μ] (d : Draft S Float μ) : Prop :=
  let r := (total : StateM (Draft S Float μ) S) d
  let m := r.2.canvas.memory
  ∀ ρ : Nat → Float,
    Double.Same (Scalar.read m ρ r.1) (r.2.losses.totalValue m ρ) ∧
      Scalar.read m ρ r.1 = leftSum (r.2.losses.terms m ρ) ∧
      Double.Same (r.2.losses.totalValue m ρ) (leftSum (r.2.losses.terms m ρ))

theorem TotalsAgree.of_read {S μ : Type} [Scalar S Float μ] {d : Draft S Float μ}
    (h : let r := (total : StateM (Draft S Float μ) S) d
      ∀ ρ, Scalar.read r.2.canvas.memory ρ r.1 =
        leftSum (r.2.losses.terms r.2.canvas.memory ρ)) : d.TotalsAgree := by
  intro ρ
  refine ⟨?_, h ρ, Double.sum_same _⟩
  rw [h ρ]
  exact (Double.sum_same _).symm

theorem totalsAgree_numbers (d : Draft Float Float Unit) : d.TotalsAgree :=
  .of_read fun ρ => d.losses.calculate_total_eq ρ

theorem Sound.read_total {d : SymbolicDraft Float} (h : d.Sound) (ρ : Nat → Float) :
    let r := (total : StateM (SymbolicDraft Float) (Formula Float)) d
    r.2.canvas.memory.value ρ r.1 = leftSum (r.2.losses.terms r.2.canvas.memory ρ) := by
  intro r
  obtain ⟨hle, hvalue⟩ := h.total_run ρ
  calc r.2.canvas.memory.value ρ r.1
      = calculate (d.losses.map (d.canvas.memory.value ρ)).total := hvalue
    _ = leftSum ((d.losses.map (d.canvas.memory.value ρ)).terms () ρ) :=
        LossTable.calculate_total_eq _ ρ
    _ = leftSum (d.losses.terms r.2.canvas.memory ρ) := by
        rw [LossTable.terms_map, h.terms_eq hle]

theorem Sound.totalsAgree {d : SymbolicDraft Float} (h : d.Sound) : d.TotalsAgree :=
  .of_read h.read_total

/-- What a descent reports is the sum for the values that it leaves, if it starts at all. -/
theorem Sound.finalLoss_eq {d : FormulaDraft} (h : Sound d) (s : Descent.Settings Float) :
    let r := FormulaDraft.minimize s d
    let sum := leftSum (r.2.losses.terms r.2.canvas.memory r.2.canvas.assignment)
    r.1.report.finalLoss = sum ∨ r.1.report.finalLoss.isNaN = true ∧ sum.isFinite = false := by
  let t := (total : StateM (SymbolicDraft Float) (Formula Float)) d
  let o := Descent.Objective.ofFormula t.2.canvas.memory t.1 (List.range t.2.canvas.vars.size)
  let values := t.2.canvas.vars.map (·.value)
  obtain ⟨hoff, hreached⟩ := Descent.minimize_left o s values
  have hsize : (Descent.minimize o s values).2.size = t.2.canvas.vars.size := by
    rw [hoff.size, Array.size_map]
  intro r sum
  have hsum : o.loss (Descent.minimize o s values).2 = sum := by
    refine (h.read_total _).trans ?_
    rw [← Canvas.assignment_setAll hsize]
    rfl
  rw [hsum] at hreached
  obtain ⟨n, hsome⟩ | ⟨hnone, hinfinite⟩ := hreached
  · exact .inl (Descent.Outcome.report_of_reached hsome)
  · exact .inr ⟨Descent.Outcome.report_of_not_reached hnone, hinfinite⟩

/-- On doubles, the two total losses agree: for every draft on numbers, and for every draft on
formulas that instructions lead to, before and after losses on all points are added, whatever the
values of the variables. And the loss that a descent reports is the one that the losses of the
drawing add up to, or it is not a number and they do not add up to anything finite. -/
theorem totals_agree :
    (∀ d : Draft Float Float Unit, d.TotalsAgree) ∧
    (∀ d : SymbolicDraft Float, Reachable d → d.TotalsAgree ∧ d.finish.TotalsAgree) ∧
    ∀ (s : DrawingSettings) (is : List Instruction) (seed : UInt64) (n : Nat) (D : Drawing),
      Drawing.build s is seed n = .ok D →
      let sum := leftSum (D.losses.map fun l => l.weight * l.value)
      D.report.finalLoss = sum ∨ D.report.finalLoss.isNaN = true ∧ sum.isFinite = false := by
  refine ⟨totalsAgree_numbers, fun d hd => ⟨hd.sound.totalsAgree, hd.sound.finish.1.totalsAgree⟩, ?_⟩
  intro s is seed n D hD sum
  obtain ⟨d, hd, hdrawing⟩ := Drawing.build_draft hD
  obtain ⟨d', hrun, hfinish⟩ := bind_eq_ok.mp hd
  obtain rfl : d'.finish = d := pure_eq_ok.mp hfinish
  have hsound := ((Sound.start _ _).processAll_ok hrun).1.finish.1
  let r := FormulaDraft.minimize s.descent d'.finish
  have hreport : D.report = r.1.report := congrArg Drawing.report hdrawing
  have hlosses : D.losses = (FormulaDraft.drawing D.seed r.1.report r.2).losses :=
    congrArg Drawing.losses hdrawing
  have hsum : sum =
      leftSum (r.2.losses.terms r.2.canvas.memory r.2.canvas.assignment) := by
    simp only [sum, hlosses]
    exact congrArg leftSum (List.map_map ..)
  rw [hreport, hsum]
  exact hsound.finalLoss_eq s.descent

/-- Two sides of a triangle with random corners, whose total loss is recorded, and what is reported
of it when no step may be taken. -/
theorem totals_agree_sides :
    let is : List Instruction :=
      [.sample ["A", "B", "C"] "uniform" [], .assert ⟨"cong", ["A", "B", "B", "C"], false⟩]
    let d := (process (.assert ⟨"cong", ["A", "B", "B", "C"], false⟩) (process
      (.sample ["A", "B", "C"] "uniform" [])
      (⟨Canvas.start Graph.empty (.uniform 7), .standard, {}, {}⟩ : SymbolicDraft Float)).2).2
    d.losses.entries.length = 1 ∧ d.TotalsAgree ∧
      ∃ D, Drawing.build ⟨.standard, { Descent.Settings.standard with maxIterations := 0 }⟩ is 7 1 =
        .ok D ∧ D.report.finalLoss = leftSum (D.losses.map fun l => l.weight * l.value) := by
  intro is d
  have hd : Reachable d := .process (.process (.start _ _) _) _
  refine ⟨by decide +kernel, (totals_agree.2.1 d hd).1, ?_⟩
  have hbuild : (Drawing.build ⟨.standard, { Descent.Settings.standard with maxIterations := 0 }⟩
      is 7 1).toOption.map (fun D => D.report.finalLoss.isNaN) = some false := by
    decide +kernel
  cases hD : Drawing.build ⟨.standard, { Descent.Settings.standard with maxIterations := 0 }⟩ is 7 1
    with
  | error e =>
      rw [hD] at hbuild
      cases hbuild
  | ok D =>
      rw [hD] at hbuild
      obtain h | ⟨hnan, -⟩ := totals_agree.2.2 _ is 7 1 D hD
      · exact ⟨D, rfl, h⟩
      · cases hnan.symm.trans (Option.some.inj hbuild)

end Draft

end PlaneFigure
