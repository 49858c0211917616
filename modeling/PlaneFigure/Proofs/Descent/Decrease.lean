import PlaneFigure.Proofs.Descent.Report
import PlaneFigure.Proofs.Number.Rounding

/-!
What a descent does to the loss, to the variables and to the step length. Its positions form a chain
of accepted steps, so what holds of one accepted step holds along the whole descent: the loss
decreases, what may not move stays, and a step length that starts between zero and the first one
stays there.
-/

namespace PlaneFigure.Descent

section

variable {R : Type}

/-- The number of accepted steps and the loss that an outcome reports, if there was a start. -/
def Outcome.reached? : Outcome R → Option (Nat × R)
  | .settled r => some (r.iterations, r.finalLoss)
  | .exhausted n loss => some (n, loss)
  | .notFinite => none

variable [Number R] {o : Objective R} {s : Settings R}

/-- The positions along a number of accepted steps. -/
theorem AcceptedSteps.trace {n : Nat} {p q : Position R} (h : AcceptedSteps o s n p q) :
    ∃ trace : List (Position R), (p :: trace).IsChain (AcceptedStep o s) ∧
      trace.length = n ∧ trace.getLastD p = q := by
  induction h with
  | none p => exact ⟨[], .singleton p, rfl, rfl⟩
  | @snoc n p q r _ hstep ih =>
      obtain ⟨trace, hchain, hlength, hlast⟩ := ih
      refine ⟨trace ++ [r], ?_, by simp [hlength], by simp⟩
      rw [← List.cons_append, List.isChain_append]
      refine ⟨hchain, .singleton r, ?_⟩
      simp_all [List.getLast?_cons, List.getLastD_eq_getLast?]

/-- What accepted steps preserve holds at every position of a descent. -/
theorem forall_of_chain {P : Position R → Prop} {p : Position R} {trace : List (Position R)}
    (hchain : (p :: trace).IsChain (AcceptedStep o s)) (hstart : P p)
    (hstep : ∀ q r, AcceptedStep o s q r → P q → P r) : ∀ q ∈ p :: trace, P q :=
  hchain.induction P _ (fun q r h => hstep q r h) fun _ => hstart

theorem trial_agreeOff (o : Objective R) (v : Array R) (step : R) :
    AgreeOff o.moving (o.trial v step) v :=
  (moveAll_agreeOff ..).mono (o.moves_subset v)

theorem AcceptedStep.agreeOff {p q : Position R} (h : AcceptedStep o s p q) :
    AgreeOff o.moving q.values p.values := by
  obtain ⟨k, -, -, -, rfl⟩ := h
  exact trial_agreeOff ..

/-- An iteration without an acceptable trial puts everything back. -/
theorem advance_of_rejected {n : Nat} {p : Position R}
    (h : (o.searchFrom s p s.maxBacktracks p.step p.values).1 = none) :
    (advance o s n p).1.values = p.values := by
  cases hlt : Number.lt p.loss s.tolerance with
  | true => simp [advance, hlt]
  | false =>
      by_cases hflat : Number.lt (Number.sqrt (o.slopeSq p.values))
          (s.minGradient * scaleOf p.loss) = true
      · have hstays : advance o s n p =
            (p, some { converged := false, finalLoss := p.loss, iterations := n }) := by
          rw [advance, if_neg (by simp [hlt])]
          exact if_pos hflat
        rw [hstays]
      rw [advance_of_steep n hlt hflat]
      rcases search_cases o s p s.maxBacktracks p.step p.values (.refl _ _) with
        ⟨left, hsearch, hleft⟩ | ⟨k, -, -, -, hsearch⟩
      · rw [hsearch]
        exact moveBack_restores hleft
      · rw [hsearch] at h
        exact absurd h (by simp)

end

/-! ### Doubles -/

section

variable {o : Objective Float} {s : Settings Float}

/-- An accepted step lowers the loss, by the part of the promise that is asked for. -/
theorem AcceptedStep.decrease {p q : Position Float} (h : AcceptedStep o s p q) :
    q.loss < p.loss ∧ ∃ k < s.maxBacktracks, q.values = o.trial p.values (trialStep s p.step k) ∧
      q.loss ≤ p.loss - 1e-4 * trialStep s p.step k * o.slopeSq p.values := by
  obtain ⟨k, hk, -, hacc, rfl⟩ := h
  simp only [Objective.accepts, acceptable, Bool.and_eq_true] at hacc
  exact ⟨of_decide_eq_true hacc.1.2, k, hk, rfl, of_decide_eq_true hacc.2⟩

theorem losses_decrease {p : Position Float} {trace : List (Position Float)}
    (hchain : (p :: trace).IsChain (AcceptedStep o s)) :
    (p :: trace).Pairwise fun q r => r.loss < q.loss := by
  let less := fun q r : Position Float => r.loss < q.loss
  have htrans : Trans less less less := ⟨fun hqr hrt => Double.lt_trans hrt hqr⟩
  exact (hchain.imp fun q r h => h.decrease.1).pairwise

theorem last_le {p : Position Float} {trace : List (Position Float)}
    (hchain : (p :: trace).IsChain (AcceptedStep o s)) (hnumber : p.loss.isNaN = false) :
    (trace.getLastD p).loss ≤ p.loss := by
  have hlosses := (List.pairwise_cons.mp (losses_decrease hchain)).1
  cases htrace : trace.getLast? with
  | none =>
      rw [List.getLastD_eq_getLast?, htrace]
      exact Double.le_refl hnumber
  | some q =>
      rw [List.getLastD_eq_getLast?, htrace]
      exact Double.le_of_lt (hlosses q (List.mem_of_getLast? htrace))

/-- A step length that is not negative and at most the first one. -/
def StepBounded (s : Settings Float) (step : Float) : Prop :=
  0 ≤ step ∧ step ≤ s.initialStep

variable (hpos : 0 < s.backtrack) (hle : s.backtrack ≤ 1)
include hpos hle

/-- Trials only shorten the step. -/
theorem StepBounded.trialStep {step : Float} (h : StepBounded s step) (k : Nat) :
    StepBounded s (trialStep s step k) := by
  induction k generalizing step with
  | zero => exact h
  | succ k ih =>
      have hshorter := Double.mul_le h.1 hpos hle
      exact ih ⟨hshorter.1, Double.le_trans hshorter.2 h.2⟩

/-- After an accepted step, the step length grows back at most to the first one. -/
theorem AcceptedStep.stepBounded {p q : Position Float} (hinitial : 0 < s.initialStep)
    (h : AcceptedStep o s p q) (hp : StepBounded s p.step) : StepBounded s q.step := by
  obtain ⟨k, -, -, -, rfl⟩ := h
  have hgrown := Double.div_nonneg (hp.trialStep hpos hle k).1 hpos hle
  exact Double.smaller_nonneg hgrown (Double.le_of_lt hinitial)

end

/-- A descent either refuses to start, or goes through as many accepted steps as it reports. -/
theorem minimize_trace (o : Objective Float) (s : Settings Float) (values : Array Float) :
    let start : Position Float := ⟨values, o.loss values, s.initialStep⟩
    ∃ trace : List (Position Float),
      (start :: trace).IsChain (AcceptedStep o s) ∧
      (minimize o s values).2 = (trace.getLastD start).values ∧
      ((o.loss values).isFinite = false → trace = []) ∧
      (minimize o s values).1.reached? =
        if (o.loss values).isFinite then some (trace.length, (trace.getLastD start).loss)
        else none := by
  intro start
  have hnumber : Number.isFinite (o.loss values) = (o.loss values).isFinite := rfl
  cases hfinite : (o.loss values).isFinite with
  | false =>
      have hmin : minimize o s values = (.notFinite, values) :=
        if_pos (by simp [hnumber, hfinite])
      exact ⟨[], .singleton start, by rw [hmin]; rfl, fun _ => rfl, by rw [hmin]; rfl⟩
  | true =>
      have hle : ∀ a b : Float, Number.le a b = true → Number.lt b a = false := fun a b h =>
        decide_eq_false (Double.not_lt_of_le (of_decide_eq_true h))
      have hmin : minimize o s values = descend o s s.maxIterations 0 start :=
        if_neg (by simp [hnumber, hfinite])
      have hreport := descend_report hle o s start s.maxIterations 0 start (Nat.zero_add _)
        (.none start) rfl hfinite
      obtain ⟨n, loss, step, hsteps, hreached⟩ : ∃ n loss step,
          AcceptedSteps o s n start ⟨(minimize o s values).2, loss, step⟩ ∧
          (minimize o s values).1.reached? = some (n, loss) := by
        rw [hmin]
        rcases hdescend : descend o s s.maxIterations 0 start with ⟨r | ⟨n, loss⟩ | _, left⟩
        all_goals rw [hdescend] at hreport
        · obtain ⟨-, -, ⟨step, hsteps⟩, -⟩ := hreport
          exact ⟨r.iterations, r.finalLoss, step, hsteps, rfl⟩
        · obtain ⟨-, -, ⟨step, hsteps⟩, -⟩ := hreport
          exact ⟨n, loss, step, hsteps, rfl⟩
        · exact hreport.elim
      obtain ⟨trace, hchain, hlength, hlast⟩ := hsteps.trace
      refine ⟨trace, hchain, by rw [hlast], by simp, ?_⟩
      rw [hreached, hlast, hlength]
      rfl

/-- A descent leaves values that differ from those at the start in moving variables only, and the loss
that it reports is theirs; if it reports none, their loss is not finite. -/
theorem minimize_left (o : Objective Float) (s : Settings Float) (values : Array Float) :
    let r := minimize o s values
    AgreeOff o.moving r.2 values ∧
      ((∃ n, r.1.reached? = some (n, o.loss r.2)) ∨
        r.1.reached? = none ∧ (o.loss r.2).isFinite = false) := by
  intro r
  obtain ⟨trace, hchain, hleft, hrefused, hreached⟩ := minimize_trace o s values
  obtain ⟨hoff, hloss⟩ := forall_of_chain
    (P := fun p => AgreeOff o.moving p.values values ∧ p.loss = o.loss p.values) hchain
    ⟨.refl .., rfl⟩ (fun p q h hp => ⟨h.agreeOff.trans hp.1, h.loss_eq⟩) _ List.getLastD_mem_cons
  rw [← hleft] at hoff hloss
  rw [hloss] at hreached
  refine ⟨hoff, ?_⟩
  cases hfinite : (o.loss values).isFinite with
  | true => exact .inl ⟨trace.length, by rw [hreached, if_pos hfinite]⟩
  | false =>
      have hstart : r.2 = values := by rw [hleft, hrefused hfinite]; rfl
      exact .inr ⟨by rw [hreached, if_neg (by simp [hfinite])], hstart ▸ hfinite⟩

/-- A descent lowers the loss with every accepted step, by the sufficient decrease for the gradient
of the moving variables, with zero for what is not finite; so it ends no higher than it starts. It
writes moving variables only, an iteration without an acceptable trial leaves them as they were, and
with a factor of at most one no step is longer than the first. -/
theorem minimize_descends (g : Graph Float) (f : Formula Float) (moving : List Nat)
    (s : Settings Float) (values : Array Float) :
    let o := Objective.ofFormula g f moving
    let eval := fun v : Array Float => g.value (fun i => v.getD i 0.0) f
    let bound := moving.foldl (fun n i => max n (i + 1)) 0
    let slope := fun v : Array Float => moving.map fun i =>
      let d := (g.gradient (fun i => v.getD i 0.0) f bound).2.getD i 0.0
      if d.isFinite then d else 0.0
    let slopeSq := fun v : Array Float => Number.sum ((slope v).map fun d => d * d)
    let start : Position Float := ⟨values, eval values, s.initialStep⟩
    (∃ trace : List (Position Float),
      -- the positions of the descent, from its start to what it leaves and reports
      (start :: trace).IsChain (AcceptedStep o s) ∧
      (minimize o s values).2 = (trace.getLastD start).values ∧
      ((eval values).isFinite = false → trace = []) ∧
      (minimize o s values).1.reached? =
        (if (eval values).isFinite then some (trace.length, (trace.getLastD start).loss)
        else none) ∧
      -- the losses
      (start :: trace).Pairwise (fun p q => q.loss < p.loss) ∧
      (start :: trace).IsChain (fun p q => q.loss = eval q.values ∧
        ∃ k < s.maxBacktracks, q.values = o.trial p.values (trialStep s p.step k) ∧
          q.loss ≤ p.loss - 1e-4 * trialStep s p.step k * slopeSq p.values) ∧
      ((eval values).isFinite = true → (trace.getLastD start).loss ≤ eval values) ∧
      ∀ p ∈ start :: trace,
        -- the variables, also while trials are made
        AgreeOff moving p.values values ∧
        (∀ k, AgreeOff moving (o.trial p.values (trialStep s p.step k)) values) ∧
        -- the step length
        (0 < s.backtrack → s.backtrack ≤ 1 → 0 < s.initialStep →
          ∀ k, trialStep s p.step k ≤ s.initialStep)) ∧
    ∀ n p, (o.searchFrom s p s.maxBacktracks p.step p.values).1 = none →
      (advance o s n p).1.values = p.values := by
  intro o eval bound slope slopeSq start
  refine ⟨?_, fun n p => advance_of_rejected⟩
  obtain ⟨trace, hchain, hleft, hrefused, hreached⟩ := minimize_trace o s values
  refine ⟨trace, hchain, hleft, hrefused, hreached, losses_decrease hchain, ?_, ?_, ?_⟩
  · exact hchain.imp fun p q h => ⟨h.loss_eq, h.decrease.2⟩
  · intro hfinite
    exact last_le hchain (Double.isNaN_of_isFinite hfinite)
  · intro p hp
    have hoff : AgreeOff moving p.values values :=
      forall_of_chain hchain (.refl moving values) (fun q r h hq => h.agreeOff.trans hq) p hp
    refine ⟨hoff, fun k => (trial_agreeOff o p.values _).trans hoff, ?_⟩
    intro hpos hle hinitial k
    have hstart : StepBounded s s.initialStep :=
      ⟨Double.le_of_lt hinitial, Double.le_refl (Double.lt_iff.mp hinitial).2.1⟩
    have hbounded : StepBounded s p.step :=
      forall_of_chain hchain hstart (fun q r h => h.stepBounded hpos hle hinitial) p hp
    exact (hbounded.trialStep hpos hle k).2

/-- The square of the only variable. -/
def parabola : Graph Float := ⟨#[.var 0, .binary .mul 0 0]⟩

theorem parabola_order : parabola.order 1 = #[0, 1] := by
  simp [parabola, Graph.order, Graph.walk, Graph.children, Node.children]

/-- From one, the first step would lead to minus one, and half of it to zero; with one trial only,
the variable is put back. -/
theorem minimize_descends_parabola :
    let s : Settings Float := .standard
    let o := Objective.ofFormula parabola ⟨1⟩ [0]
    let start : Position Float := ⟨#[1.0], 1.0, 1.0⟩
    (minimize o s #[1.0]).1.reached? = some (1, 0.0) ∧
    (∃ q, AcceptedStep o s start q ∧ (minimize o s #[1.0]).2 = q.values ∧ q.loss < start.loss ∧
      ∀ k, trialStep s q.step k ≤ s.initialStep) ∧
    (advance o { s with maxBacktracks := 1 } 0 start).1.values = #[1.0] := by
  intro s o start
  have hone : (parabola.value (fun i => #[1.0].getD i 0.0) ⟨1⟩) = 1.0 := by decide +kernel
  have hrun : (minimize o s #[1.0]).1.reached? = some (1, 0.0) := by
    simp only [o, Objective.ofFormula, Graph.gradient, parabola_order]
    decide +kernel
  have hdescends := (minimize_descends parabola ⟨1⟩ [0] s #[1.0]).1
  simp only [hone] at hdescends
  obtain ⟨trace, hchain, hleft, -, hreached, hlosses, -, -, hall⟩ := hdescends
  obtain ⟨q, rfl⟩ : ∃ q, trace = [q] := by
    rw [hrun, if_pos (by decide +kernel), Option.some_inj, Prod.mk.injEq] at hreached
    exact List.length_eq_one_iff.mp hreached.1.symm
  refine ⟨hrun, ⟨q, List.isChain_pair.mp hchain, hleft, ?_, ?_⟩, ?_⟩
  · exact (List.pairwise_cons.mp hlosses).1 q (List.mem_singleton_self q)
  · exact (hall q (by simp)).2.2 (by decide +kernel) (by decide +kernel) (by decide +kernel)
  · refine (minimize_descends parabola ⟨1⟩ [0] { s with maxBacktracks := 1 } #[1.0]).2 0 start ?_
    simp only [Objective.ofFormula, Objective.searchFrom, Objective.slopeSq, Graph.gradient,
      parabola_order]
    decide +kernel

end PlaneFigure.Descent
