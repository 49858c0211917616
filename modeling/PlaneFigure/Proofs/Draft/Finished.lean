import PlaneFigure.Proofs.Draft.Regularizer
import PlaneFigure.Proofs.Draft.Crossing
import PlaneFigure.Proofs.Draft.Tables

/-!
Finished drafts. Finishing adds the losses on all points that count, and nothing else; on formulas it
does what it does on the values of the formulas. So in exact arithmetic the residuals that it adds
are the means over the positions of the points, in whatever order these were added.
-/

namespace PlaneFigure

namespace Draft

section Losses

variable {S R μ : Type} [Number R]

/-- The losses on all points that the settings ask for, by what their residuals are. -/
def finishingLosses (s : DraftSettings R) (n : Nat) (norm closeness : S) :
    List (String × Loss S R) :=
  (if Number.lt 0.0 s.regularizePoints ∧ 0 < n then
    [("points-norm", ⟨norm, s.regularizePoints⟩)] else []) ++
  if Number.lt 0.0 s.makeDistinct ∧ 1 < n then
    [("points-distinct", ⟨closeness, s.makeDistinct⟩)] else []

theorem finishingLosses_congr {s : DraftSettings R} {n : Nat} {norm norm' closeness closeness' : S}
    (hnorm : 0 < n → norm = norm') (hcloseness : 1 < n → closeness = closeness') :
    finishingLosses s n norm closeness = finishingLosses s n norm' closeness' := by
  unfold finishingLosses
  congr 1
  · split_ifs with h
    · rw [hnorm h.2]
    · rfl
  · split_ifs with h
    · rw [hcloseness h.2]
    · rfl

theorem regularize_losses (d : Draft S R μ) (label : String) (weight : R) (enough : Bool)
    (residual : List (Point S) → StateM μ S) :
    (d.regularize label weight enough residual).losses.entries =
      d.losses.entries ++ if Number.lt 0.0 weight ∧ enough then
        [(label, ⟨(residual (d.points.entries.map (·.2)) d.canvas.memory).1, weight⟩)] else [] := by
  unfold regularize
  simp only [Bool.and_eq_true]
  split_ifs
  · rfl
  · exact (List.append_nil _).symm

variable [Scalar S R μ]

/-- The memory in which closeness is recorded is the one that the mean distance leaves. -/
theorem finish_losses (d : Draft S R μ) :
    let points := d.points.entries.map (·.2)
    let d' := d.regularize "points-norm" d.settings.regularizePoints
      (0 < d.points.entries.length) Regularizer.meanNorm
    d.finish.losses.entries = d.losses.entries ++
      finishingLosses d.settings d.points.entries.length
        ((Regularizer.meanNorm points : StateM μ S) d.canvas.memory).1
        ((Regularizer.meanCloseness points : StateM μ S) d'.canvas.memory).1 := by
  intro points d'
  obtain ⟨hpoints, -, -, hsettings⟩ := regularize_keeps d "points-norm"
    d.settings.regularizePoints (0 < d.points.entries.length) Regularizer.meanNorm
  unfold finish finishingLosses
  dsimp only
  rw [regularize_losses, regularize_losses, hpoints, hsettings, List.append_assoc]
  simp only [decide_eq_true_eq]
  rfl

theorem finish_losses_numbers (d : Draft R R Unit) :
    d.finish.losses.entries = d.losses.entries ++
      finishingLosses d.settings d.points.entries.length
        (calculate (Regularizer.meanNorm (d.points.entries.map (·.2))))
        (calculate (Regularizer.meanCloseness (d.points.entries.map (·.2)))) :=
  d.finish_losses

end Losses

section Values

variable {R : Type} [Number R] {d : SymbolicDraft R}

/-- What a draft on formulas is in numbers, when variable `i` has the value `ρ i`. -/
def evaluated (ρ : Nat → R) (d : SymbolicDraft R) : Draft R R Unit :=
  ⟨⟨(), d.canvas.vars, d.canvas.draws⟩, d.settings, d.positions ρ,
    d.losses.map (d.canvas.memory.value ρ)⟩

/-- A loss on all points has the value that is computed from their positions, and nothing that was
there before changes its value. -/
theorem Sound.evaluated_regularize (h : d.Sound) (ρ : Nat → R) (label : String) (weight : R)
    (enough : Bool) {residual : List (Point (Formula R)) → StateM (Graph R) (Formula R)}
    {residual' : List (Point R) → StateM Unit R}
    (hresidual : ∀ A w l l', Stands w l l' → Simulates (OnGraph A) w (residual l) (residual' l')) :
    (d.regularize label weight enough residual).evaluated ρ =
      (d.evaluated ρ).regularize label weight enough residual' := by
  have hpoints : Stands (⟨d.canvas.memory, h.graph, {ρ}⟩ : World R) d.points (d.positions ρ) :=
    h.points_stand
  obtain ⟨hle, hvalue⟩ := (hresidual (World.basis ⟨d.canvas.memory, h.graph, {ρ}⟩) _
    (d.points.entries.map (·.2)) ((d.positions ρ).entries.map (·.2)) inferInstance).value_eq
  unfold Draft.regularize
  split
  · let r := residual (d.points.entries.map (·.2)) d.canvas.memory
    have hpositions : d.points.map (r.2.value ρ) = d.positions ρ :=
      congrArg PointTable.mk (h.tables.points_eq hle)
    have hlosses : (d.losses.append [(label, ⟨r.1, weight⟩)]).map (r.2.value ρ) =
        (d.losses.map (d.canvas.memory.value ρ)).append
          [(label, ⟨(residual' ((d.positions ρ).entries.map (·.2)) ()).1, weight⟩)] := by
      rw [← hvalue]
      refine congrArg LossTable.mk ?_
      rw [LossTable.append, List.map_append, h.tables.losses_eq hle]
      rfl
    exact congrArg₂ (fun points losses => (⟨⟨(), d.canvas.vars, d.canvas.draws⟩, d.settings, points,
      losses⟩ : Draft R R Unit)) hpositions hlosses
  · rfl

theorem Sound.evaluated_finish (h : d.Sound) (ρ : Nat → R) :
    d.finish.evaluated ρ = (d.evaluated ρ).finish := by
  have hlength : (d.evaluated ρ).points.entries.length = d.points.entries.length :=
    List.length_map ..
  have hnorm : ∀ A w (l : List (Point (Formula R))) (l' : List (Point R)), Stands w l l' →
      Simulates (OnGraph A) w (Regularizer.meanNorm l) (Regularizer.meanNorm l') :=
    fun _ _ _ _ _ => .meanNorm
  have hcloseness : ∀ A w (l : List (Point (Formula R))) (l' : List (Point R)), Stands w l l' →
      Simulates (OnGraph A) w (Regularizer.meanCloseness l) (Regularizer.meanCloseness l') :=
    fun _ _ _ _ _ => .meanCloseness
  obtain ⟨hsound, -⟩ := h.regularize "points-norm" d.settings.regularizePoints
    (0 < d.points.entries.length) Regularizer.meanNorm Regularizer.meanNorm hnorm
  unfold Draft.finish
  dsimp only
  rw [hsound.evaluated_regularize ρ _ _ _ hcloseness, h.evaluated_regularize ρ _ _ _ hnorm, hlength,
    (regularize_keeps d ..).2.2.2, (regularize_keeps (d.evaluated ρ) ..).2.2.2]
  rfl

end Values

section Exact

open Exact

/-- Points with real coordinates, in another order. -/
theorem exists_perm {l : List (Point Exact)} {ps : List (Point ℝ)}
    (h : l.Perm (ps.map Point.exact)) :
    ∃ qs : List (Point ℝ), qs.Perm ps ∧ l = qs.map Point.exact := by
  refine ⟨l.map (Point.map toReal), ?_, ?_⟩
  · have hreal := h.map (Point.map toReal)
    rwa [List.map_map, show Point.map toReal ∘ Point.exact = id from rfl, List.map_id] at hreal
  · have hid : ∀ p ∈ l, (Point.exact ∘ Point.map toReal) p = id p := by
      intro p hp
      obtain ⟨q, -, rfl⟩ := List.mem_map.mp (h.subset hp)
      rfl
    rw [List.map_map, List.map_congr_left hid, List.map_id]

/-- What is added depends on the positions of the points only, not on their order. -/
theorem finish_losses_exact (d : Draft Exact Exact Unit) {ps : List (Point ℝ)}
    (h : (d.points.entries.map (·.2)).Perm (ps.map Point.exact)) :
    d.finish.losses.entries = d.losses.entries ++ finishingLosses d.settings ps.length
      (real (Regularizer.expectedNorm ps)) (real (Regularizer.expectedCloseness ps)) := by
  obtain ⟨qs, hqs, hpoints⟩ := exists_perm h
  have hlength : d.points.entries.length = qs.length := by
    simpa using congrArg List.length hpoints
  rw [finish_losses_numbers, hpoints, hlength, ← Regularizer.expectedNorm_perm hqs,
    ← Regularizer.expectedCloseness_perm hqs, ← hqs.length_eq]
  exact congrArg _ (finishingLosses_congr Regularizer.calculate_meanNorm_exact
    Regularizer.calculate_meanCloseness_exact)

/-- Finishing leaves points, variables and losses as they are and adds the mean distance from the
origin and then the mean closeness of any two points, if they have positive weights and there are
points enough. On formulas it does what it does on their values, which do not change. In exact
arithmetic, the residuals are these means over the positions in any order. The second is positive
and at most 1, and 1 just if all points are in one place. -/
theorem finish_adds_regularizers :
    (∀ (S R μ : Type) [Number R] [Scalar S R μ] (d : Draft S R μ),
      d.finish.points = d.points ∧ d.finish.canvas.vars = d.canvas.vars ∧
      d.finish.canvas.draws = d.canvas.draws ∧ d.finish.settings = d.settings ∧
      ∃ norm closeness, d.finish.losses.entries = d.losses.entries ++
        finishingLosses d.settings d.points.entries.length norm closeness) ∧
    (∀ (R : Type) [Number R] [Uniform R] [Range.AllSound R] (d : SymbolicDraft R), Evolved d →
      ∀ ρ, d.finish.evaluated ρ = (d.evaluated ρ).finish) ∧
    (∀ (d : Draft Exact Exact Unit) (ps : List (Point ℝ)),
      (d.points.entries.map (·.2)).Perm (ps.map Point.exact) →
      d.finish.losses.entries = d.losses.entries ++ finishingLosses d.settings ps.length
        (real (Regularizer.expectedNorm ps)) (real (Regularizer.expectedCloseness ps))) ∧
    ∀ ps : List (Point ℝ), 1 < ps.length →
      0 < Regularizer.expectedCloseness ps ∧ Regularizer.expectedCloseness ps ≤ 1 ∧
      (Regularizer.expectedCloseness ps = 1 ↔ ∀ p ∈ ps, ∀ q ∈ ps, p = q) := by
  refine ⟨fun _ _ _ _ _ d => ?_, fun _ _ _ _ _ hd ρ => hd.sound.evaluated_finish ρ,
    fun d _ hps => d.finish_losses_exact hps, fun ps hps => ?_⟩
  · obtain ⟨hpoints, hvars, hdraws, hsettings⟩ := d.finish_keeps
    exact ⟨hpoints, hvars, hdraws, hsettings, _, _, d.finish_losses⟩
  · obtain ⟨hpos, hle⟩ := Regularizer.expectedCloseness_mem hps
    exact ⟨hpos, hle, Regularizer.expectedCloseness_eq_one hps⟩

/-- Two points, given in the other order; weights of which none is positive; and a draft without
points. -/
theorem finish_adds_regularizers_two :
    let d := located ⟨real 1, real 1, real 0⟩ [("A", ⟨0, 0⟩), ("B", ⟨3, 4⟩)]
    let ps : List (Point ℝ) := [⟨3, 4⟩, ⟨0, 0⟩]
    let e : Draft Float Float Unit := ⟨Canvas.start () (.constant 0.0), ⟨Float.nan, -1.0, 0.0⟩,
      ⟨[("A", ⟨0.0, 0.0⟩), ("B", ⟨3.0, 4.0⟩)]⟩, {}⟩
    let f : SymbolicDraft Exact :=
      ⟨Canvas.start Graph.empty (.constant (real 0)), .standard, {}, {}⟩
    d.finish.losses.entries =
      [("points-norm", ⟨real 2.5, real 1⟩), ("points-distinct", ⟨real 26⁻¹, real 1⟩)] ∧
    e.finish.losses.entries = [] ∧
    f.finish.evaluated (fun _ => real 0) = (f.evaluated fun _ => real 0).finish ∧
    Regularizer.expectedCloseness ps ≤ 1 := by
  intro d ps e f
  obtain ⟨hkeeps, hformulas, hexact, hbounds⟩ := finish_adds_regularizers
  have hperm : (d.points.entries.map (·.2)).Perm (ps.map Point.exact) := .swap ..
  refine ⟨?_, ?_, hformulas Exact f (.start _ _) _, (hbounds ps Nat.one_lt_two).2.1⟩
  · have hnorm : Regularizer.expectedNorm ps = 2.5 := by
      have hfar : ‖Point.toPlane ⟨3, 4⟩‖ = 5 := by
        rw [Point.norm_toPlane, Point.quadrance, Real.sqrt_eq_iff_mul_self_eq_of_pos] <;> norm_num
      have hnear : ‖Point.toPlane ⟨0, 0⟩‖ = 0 := by
        rw [Point.norm_toPlane, Point.quadrance_eq_zero.mpr rfl, Real.sqrt_zero]
      rw [Regularizer.expectedNorm_eq]
      norm_num [ps, hfar, hnear]
    have hcloseness : Regularizer.expectedCloseness ps = 26⁻¹ := by
      rw [Regularizer.expectedCloseness_eq]
      norm_num [ps, Regularizer.pairs, Regularizer.closeness_eq, Point.quadrance]
    rw [hexact d ps hperm, hnorm, hcloseness]
    norm_num [finishingLosses, d, ps, located]
  · obtain ⟨-, -, -, -, norm, closeness, hlosses⟩ := hkeeps Float Float Unit e
    have hnan : Number.lt 0.0 Float.nan = false := by decide +kernel
    have hnegative : Number.lt 0.0 (-1.0 : Float) = false := by decide +kernel
    rw [hlosses]
    simp [finishingLosses, e, hnan, hnegative]

end Exact

end Draft

end PlaneFigure
