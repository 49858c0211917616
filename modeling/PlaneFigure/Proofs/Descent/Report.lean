import PlaneFigure.Descent.Formula
import PlaneFigure.Proofs.Descent.LineSearch
import PlaneFigure.Proofs.Number.Double

/-!
What a descent reports agrees with the values that it leaves. The loss that is carried along is the
loss of the values at hand at every iteration, and iterations are accepted steps of the line
search, so the report of each way to stop follows from one case analysis of an iteration.
-/

namespace PlaneFigure.Descent

variable {R : Type} [Number R]

/-- An accepted step of the line search: to the first trial from `p` that it accepts. -/
def AcceptedStep (o : Objective R) (s : Settings R) (p q : Position R) : Prop :=
  ∃ k < s.maxBacktracks, (∀ j < k, o.accepts p (trialStep s p.step j) = false) ∧
    o.accepts p (trialStep s p.step k) = true ∧
    q = { values := o.trial p.values (trialStep s p.step k)
          loss := o.loss (o.trial p.values (trialStep s p.step k))
          step := Number.min (trialStep s p.step k / s.backtrack) s.initialStep }

/-- A number of accepted steps in a row. -/
inductive AcceptedSteps (o : Objective R) (s : Settings R) : Nat → Position R → Position R → Prop
  | none (p : Position R) : AcceptedSteps o s 0 p p
  | snoc {n : Nat} {p q r : Position R} :
      AcceptedSteps o s n p q → AcceptedStep o s q r → AcceptedSteps o s (n + 1) p r

theorem AcceptedStep.loss_eq {o : Objective R} {s : Settings R} {p q : Position R}
    (h : AcceptedStep o s p q) : q.loss = o.loss q.values := by
  obtain ⟨k, -, -, -, rfl⟩ := h
  rfl

theorem AcceptedStep.isFinite {o : Objective R} {s : Settings R} {p q : Position R}
    (h : AcceptedStep o s p q) : Number.isFinite q.loss = true := by
  obtain ⟨k, -, -, hacc, rfl⟩ := h
  simp only [Objective.accepts, acceptable, Bool.and_eq_true] at hacc
  exact hacc.1.1

/-- An iteration searches if the loss is too large and its slope is not too small. -/
theorem advance_of_steep {o : Objective R} {s : Settings R} {p : Position R} (n : Nat)
    (hlt : Number.lt p.loss s.tolerance = false)
    (hsteep : ¬ Number.lt (Number.sqrt (o.slopeSq p.values))
      (s.minGradient * scaleOf p.loss) = true) :
    advance o s n p =
      match o.searchFrom s p s.maxBacktracks p.step p.values with
      | (none, values) =>
        let starts := o.moving.map fun i => p.values.getD i 0.0
        ({ p with values := moveBack o.moving starts values },
          some { converged := false, finalLoss := p.loss, iterations := n })
      | (some t, values) =>
        ({ values, loss := t.loss, step := Number.min (t.step / s.backtrack) s.initialStep },
          if Number.le (p.loss - t.loss) (precision * scaleOf t.loss) &&
              Number.le s.tolerance t.loss then
            some { converged := false, finalLoss := t.loss, iterations := n + 1 }
          else none) := by
  rw [advance, if_neg (by simp [hlt])]
  exact if_neg hsteep

/-- What one iteration comes to: it stops where it is, it stops after an accepted step, or it goes
on from one. -/
theorem advance_cases (o : Objective R) (s : Settings R) (n : Nat) (p : Position R) :
    (∃ c, (c = true ↔ Number.lt p.loss s.tolerance = true) ∧ advance o s n p =
      (p, some { converged := c, finalLoss := p.loss, iterations := n })) ∨
    (∃ q, AcceptedStep o s p q ∧ Number.le s.tolerance q.loss = true ∧ advance o s n p =
      (q, some { converged := false, finalLoss := q.loss, iterations := n + 1 })) ∨
    ∃ q, AcceptedStep o s p q ∧ advance o s n p = (q, none) := by
  cases hlt : Number.lt p.loss s.tolerance with
  | true => exact .inl ⟨true, by simp, by simp [advance, hlt]⟩
  | false =>
      by_cases hflat : Number.lt (Number.sqrt (o.slopeSq p.values))
          (s.minGradient * scaleOf p.loss) = true
      · refine .inl ⟨false, by simp, ?_⟩
        rw [advance, if_neg (by simp [hlt])]
        exact if_pos hflat
      have hsearches := advance_of_steep n hlt hflat
      rcases search_cases o s p s.maxBacktracks p.step p.values (.refl _ _) with
        ⟨left, hsearch, hleft⟩ | ⟨k, hk, hbefore, hacc, hsearch⟩
      · refine .inl ⟨false, by simp, ?_⟩
        simp only [hsearches, hsearch, moveBack_restores hleft]
      · have hstep : AcceptedStep o s p _ := ⟨k, hk, hbefore, hacc, rfl⟩
        simp only [hsearches, hsearch]
        split
        case isTrue hstalled =>
          exact .inr (.inl ⟨_, hstep, (Bool.and_eq_true_iff.mp hstalled).2, rfl⟩)
        case isFalse => exact .inr (.inr ⟨_, hstep, rfl⟩)

/-- A budget that is left leads on from where the last one ended, so the steps add up. -/
theorem descend_report (hle : ∀ a b : R, Number.le a b = true → Number.lt b a = false)
    (o : Objective R) (s : Settings R) (start : Position R) (k n : Nat) (p : Position R)
    (hbudget : n + k = s.maxIterations) (hsteps : AcceptedSteps o s n start p)
    (hloss : p.loss = o.loss p.values) (hfinite : Number.isFinite p.loss = true) :
    match descend o s k n p with
    | (.notFinite, _) => False
    | (.settled r, left) =>
      Number.isFinite r.finalLoss = true ∧ r.finalLoss = o.loss left ∧
        (∃ step, AcceptedSteps o s r.iterations start ⟨left, r.finalLoss, step⟩) ∧
        (r.converged = true ↔ Number.lt r.finalLoss s.tolerance = true)
    | (.exhausted m loss, left) =>
      Number.isFinite loss = true ∧ loss = o.loss left ∧
        (∃ step, AcceptedSteps o s m start ⟨left, loss, step⟩) ∧ m = s.maxIterations ∧
        Number.lt loss s.tolerance = false := by
  induction k generalizing n p with
  | zero =>
      -- the budget is spent, and the loss is compared with the tolerance once more
      obtain rfl : n = s.maxIterations := hbudget
      cases hlt : Number.lt p.loss s.tolerance with
      | true =>
          rw [descend, if_pos hlt]
          exact ⟨hfinite, hloss, ⟨p.step, hsteps⟩, by simp [hlt]⟩
      | false =>
          rw [descend, if_neg (by simp [hlt])]
          exact ⟨hfinite, hloss, ⟨p.step, hsteps⟩, rfl, hlt⟩
  | succ k ih =>
      rw [descend]
      rcases advance_cases o s n p with ⟨c, hc, hadvance⟩ | ⟨q, hq, hle', hadvance⟩ |
        ⟨q, hq, hadvance⟩
      · rw [hadvance]
        exact ⟨hfinite, hloss, ⟨p.step, hsteps⟩, hc⟩
      · rw [hadvance]
        exact ⟨hq.isFinite, hq.loss_eq, ⟨q.step, hsteps.snoc hq⟩, by simp [hle _ _ hle']⟩
      · rw [hadvance]
        exact ih (n + 1) q (by omega) (hsteps.snoc hq) hq.loss_eq hq.isFinite

/-- What `minimize` reports is true of the values that it leaves, however it ends. It refuses to
start exactly where the loss is not finite, and then moves nothing. Otherwise the reported loss is
finite, it is the loss of the values that are left, which are reached by as many accepted steps as
are reported, and it counts as small enough exactly when it is below the tolerance; a budget is
spent only by accepted steps. -/
theorem minimize_report (g : Graph Float) (f : Formula Float) (moving : List Nat)
    (s : Settings Float) (values : Array Float) :
    let o := Objective.ofFormula g f moving
    let eval := fun v : Array Float => g.value (fun i => v.getD i 0.0) f
    let start : Position Float := ⟨values, eval values, s.initialStep⟩
    ((minimize o s values).1 = .notFinite ↔ (eval values).isFinite = false) ∧
    match minimize o s values with
    | (.notFinite, left) => left = values
    | (.settled r, left) =>
      r.finalLoss.isFinite = true ∧ r.finalLoss = eval left ∧
        (∃ step, AcceptedSteps o s r.iterations start ⟨left, r.finalLoss, step⟩) ∧
        (r.converged = true ↔ r.finalLoss < s.tolerance)
    | (.exhausted n loss, left) =>
      loss.isFinite = true ∧ loss = eval left ∧
        (∃ step, AcceptedSteps o s n start ⟨left, loss, step⟩) ∧ n = s.maxIterations ∧
        ¬ loss < s.tolerance := by
  intro o eval start
  have hle : ∀ a b : Float, Number.le a b = true → Number.lt b a = false := fun a b h =>
    decide_eq_false (Double.not_lt_of_le (of_decide_eq_true h))
  change ((minimize o s values).1 = .notFinite ↔ Number.isFinite (o.loss values) = false) ∧ _
  cases hfinite : Number.isFinite (o.loss values) with
  | false =>
      have hmin : minimize o s values = (.notFinite, values) :=
        if_pos (by simpa using hfinite)
      rw [hmin]
      exact ⟨by simp, rfl⟩
  | true =>
      have hmin : minimize o s values = descend o s s.maxIterations 0 start :=
        if_neg (by simpa using hfinite)
      have hreport := descend_report hle o s start s.maxIterations 0 start (Nat.zero_add _)
        (.none start) rfl hfinite
      rw [hmin]
      rcases hdescend : descend o s s.maxIterations 0 start with ⟨_ | ⟨n, loss⟩ | _, left⟩
      all_goals rw [hdescend] at hreport
      · obtain ⟨hf, hl, hs, hc⟩ := hreport
        exact ⟨by simp, hf, hl, hs, hc.trans decide_eq_true_iff⟩
      · obtain ⟨hf, hl, hs, hn, hc⟩ := hreport
        exact ⟨by simp, hf, hl, hs, hn, of_decide_eq_false hc⟩
      · exact hreport.elim

end PlaneFigure.Descent
