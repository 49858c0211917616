import PlaneFigure.CommandLine.Run
import PlaneFigure.Proofs.Draft.Determined
import PlaneFigure.Proofs.Number.Double

/-!
Which of several attempts becomes the drawing. The search is followed attempt by attempt: as long as
none has ended it, what is kept is the earliest drawing of least loss. A drawing records the seed of
its attempt, so it can be had again in one.
-/

namespace PlaneFigure

/-- Losses are compared in the order of all doubles, where what is not a number comes after
infinity. -/
theorem lessLoss_iff (a b : Float) : lessLoss a b = true ↔ orderKey a < orderKey b := by
  have hnan : orderKey Float.nan = 0x7ff8000000000000 := by
    rw [orderKey, Double.toBits_nan]
    rfl
  have hbound : ∀ {x : Float}, x.isNaN = false → orderKey x < orderKey Float.nan := by
    intro x hx
    have hle := Double.toBits_mod_le hx
    rw [hnan]
    dsimp only [orderKey, signBit]
    omega
  unfold lessLoss
  cases ha : a.isNaN <;> cases hb : b.isNaN
  · simp
  · rw [Float.isNaN_eq_decide_eq_nan, decide_eq_true_eq] at hb
    simpa [hb] using hbound ha
  · rw [Float.isNaN_eq_decide_eq_nan, decide_eq_true_eq] at ha
    simpa [ha] using (hbound hb).le
  · rw [Float.isNaN_eq_decide_eq_nan, decide_eq_true_eq] at ha hb
    simp [ha, hb]

namespace Drawing

/-- The seed of the attempt that is made after `k` others. The greatest seed is followed by zero. -/
def seedAfter (seed : UInt64) (k : Nat) : UInt64 := seed + UInt64.ofNat k

@[simp] theorem seedAfter_zero (seed : UInt64) : seedAfter seed 0 = seed := UInt64.add_zero seed

theorem seedAfter_succ (seed : UInt64) (k : Nat) : seedAfter seed (k + 1) = seedAfter seed k + 1 := by
  rw [seedAfter, seedAfter, UInt64.ofNat_add, ← UInt64.add_assoc]
  rfl

theorem seedAfter_next (seed : UInt64) (k : Nat) : seedAfter (seed + 1) k = seedAfter seed (k + 1) := by
  rw [seedAfter_succ, seedAfter, seedAfter, UInt64.add_assoc, UInt64.add_comm 1, UInt64.add_assoc]

/-- Outcomes of an attempt after which no other is made: it converged, or the instructions are
wrong. -/
def Stops : Except DraftError Drawing → Prop
  | .ok d => d.report.converged = true
  | .error e => e.kind ≠ .numericDegeneracy

/-- Parallel lines were met. -/
def Degenerate : Except DraftError Drawing → Prop
  | .ok _ => False
  | .error e => e.kind = .numericDegeneracy

/-- A drawing of least loss among the first `n` outcomes, and of these the earliest. -/
structure Least (outcome : Nat → Except DraftError Drawing) (n : Nat) (d : Drawing) : Prop where
  le : ∀ j < n, ∀ d', outcome j = .ok d' → orderKey d.report.finalLoss ≤ orderKey d'.report.finalLoss
  earliest : ∃ k < n, outcome k = .ok d ∧ ∀ j < k, ∀ d', outcome j = .ok d' →
    orderKey d.report.finalLoss < orderKey d'.report.finalLoss

/-- What comes of at most `n` attempts with given outcomes. -/
inductive Selects (outcome : Nat → Except DraftError Drawing) (n : Nat) :
    Except DrawingError Drawing → Prop
  /-- The first attempt that stops the search decides. -/
  | stopped {k : Nat} (hk : k < n) (hbefore : ∀ j < k, ¬ Stops (outcome j)) (hstops : Stops (outcome k)) :
      Selects outcome n ((outcome k).mapError .refused)
  | least {d : Drawing} (h : ∀ j < n, ¬ Stops (outcome j)) (hd : Least outcome n d) :
      Selects outcome n (.ok d)
  | degenerate (h : ∀ j < n, Degenerate (outcome j)) : Selects outcome n (.error .degenerate)

section Seek

variable {attempt attempt' : UInt64 → Except DraftError Drawing} {seed : UInt64} {n : Nat}
  {outcome : Nat → Except DraftError Drawing} {best : Option Drawing}

/-- What the search keeps while `n` attempts were made, none of which ended it. -/
def Keeps (outcome : Nat → Except DraftError Drawing) (n : Nat) : Option Drawing → Prop
  | none => ∀ j < n, Degenerate (outcome j)
  | some d => Least outcome n d

theorem Keeps.degenerate (h : Keeps outcome n best) (hn : Degenerate (outcome n)) :
    Keeps outcome (n + 1) best := by
  cases best with
  | none =>
      intro j hj
      obtain hj | rfl := Nat.lt_or_eq_of_le (Nat.le_of_lt_succ hj)
      · exact h j hj
      · exact hn
  | some b =>
      obtain ⟨hle, k, hk, hb, hfirst⟩ := h
      refine ⟨fun j hj d' hd' => ?_, k, Nat.lt_succ_of_lt hk, hb, hfirst⟩
      obtain hj | rfl := Nat.lt_or_eq_of_le (Nat.le_of_lt_succ hj)
      · exact hle j hj d' hd'
      · rw [hd'] at hn
        exact hn.elim

theorem Keeps.better (h : Keeps outcome n best) {d : Drawing} (hn : outcome n = .ok d) :
    Keeps outcome (n + 1) (some (better best d)) := by
  cases best with
  | none =>
      -- there was no drawing before
      have hnone : ∀ j < n, ∀ d', outcome j ≠ .ok d' := by
        intro j hj d' hd'
        have := h j hj
        rw [hd'] at this
        exact this
      refine ⟨fun j hj d' hd' => ?_, n, Nat.lt_succ_self n, hn, fun j hj d' hd' => ?_⟩
      · obtain hj | rfl := Nat.lt_or_eq_of_le (Nat.le_of_lt_succ hj)
        · exact (hnone j hj d' hd').elim
        · cases hn.symm.trans hd'
          exact Int.le_refl _
      · exact (hnone j hj d' hd').elim
  | some b =>
      obtain ⟨hle, k, hk, hb, hfirst⟩ := h
      dsimp only [Drawing.better]
      split
      next hless =>
        have hless := (lessLoss_iff ..).mp hless
        refine ⟨fun j hj d' hd' => ?_, n, Nat.lt_succ_self n, hn, fun j hj d' hd' => ?_⟩
        · obtain hj | rfl := Nat.lt_or_eq_of_le (Nat.le_of_lt_succ hj)
          · exact hless.le.trans (hle j hj d' hd')
          · cases hn.symm.trans hd'
            exact Int.le_refl _
        · exact hless.trans_le (hle j hj d' hd')
      next hless =>
        have hless := not_lt.mp (mt (lessLoss_iff ..).mpr hless)
        refine ⟨fun j hj d' hd' => ?_, k, Nat.lt_succ_of_lt hk, hb, hfirst⟩
        obtain hj | rfl := Nat.lt_or_eq_of_le (Nat.le_of_lt_succ hj)
        · exact hle j hj d' hd'
        · cases hn.symm.trans hd'
          exact hless

/-- The search goes on from the attempt after `m` others with what it has kept of them. -/
theorem seek_selects {m : Nat} (hnone : ∀ j < m, ¬ Stops (attempt (seedAfter seed j)))
    (hbest : Keeps (fun j => attempt (seedAfter seed j)) m best) :
    Selects (fun j => attempt (seedAfter seed j)) (m + n)
      (seek attempt n (seedAfter seed m) best) := by
  induction n generalizing m best with
  | zero =>
      cases best with
      | none => exact .degenerate hbest
      | some d => exact .least hnone hbest
  | succ n ih =>
      have hlater : ∀ {best}, ¬ Stops (attempt (seedAfter seed m)) →
          Keeps (fun j => attempt (seedAfter seed j)) (m + 1) best →
          Selects (fun j => attempt (seedAfter seed j)) (m + (n + 1))
            (seek attempt n (seedAfter seed m + 1) best) := by
        intro best hstops hbest
        rw [← seedAfter_succ, Nat.add_comm n, ← Nat.add_assoc]
        refine ih (fun j hj => ?_) hbest
        obtain hj | rfl := Nat.lt_or_eq_of_le (Nat.le_of_lt_succ hj)
        · exact hnone j hj
        · exact hstops
      have hstopped : Stops (attempt (seedAfter seed m)) →
          Selects (fun j => attempt (seedAfter seed j)) (m + (n + 1))
            ((attempt (seedAfter seed m)).mapError .refused) :=
        fun hstops => .stopped (Nat.lt_add_of_pos_right (Nat.succ_pos n)) hnone hstops
      unfold seek
      cases hm : attempt (seedAfter seed m) with
      | ok d =>
          rw [hm] at hlater hstopped
          dsimp only
          split
          next hconverged => exact hstopped hconverged
          next hconverged => exact hlater hconverged (hbest.better hm)
      | error e =>
          rw [hm] at hlater hstopped
          dsimp only
          split
          next hkind =>
            refine hlater (not_not.mpr hkind) (hbest.degenerate ?_)
            rwa [hm]
          next hkind => exact hstopped hkind

/-- No attempt counts but those that are made: each after others that did not end the search. -/
theorem seek_congr (h : ∀ k < n, (∀ j < k, ¬ Stops (attempt (seedAfter seed j))) →
      attempt' (seedAfter seed k) = attempt (seedAfter seed k)) :
    seek attempt' n seed best = seek attempt n seed best := by
  induction n generalizing seed best with
  | zero => cases best <;> rfl
  | succ n ih =>
      have hfirst : attempt' seed = attempt seed := by
        simpa using h 0 (Nat.succ_pos n) nofun
      have hrest : ¬ Stops (attempt seed) → ∀ best,
          seek attempt' n (seed + 1) best = seek attempt n (seed + 1) best := by
        intro hstops best
        refine ih fun k hk hbefore => ?_
        rw [seedAfter_next]
        refine h (k + 1) (Nat.succ_lt_succ hk) fun j hj => ?_
        cases j with
        | zero => simpa using hstops
        | succ j => simpa only [seedAfter_next] using hbefore j (Nat.lt_of_succ_lt_succ hj)
      unfold seek
      rw [hfirst]
      cases hattempt : attempt seed with
      | ok d =>
          dsimp only
          split
          · rfl
          next hconverged => exact hrest (hattempt ▸ hconverged) _
      | error e =>
          dsimp only
          split
          next hkind => exact hrest (hattempt ▸ not_not.mpr hkind) _
          · rfl

end Seek

namespace Selects

variable {outcome : Nat → Except DraftError Drawing} {n : Nat} {d : Drawing}

/-- The drawing is that of an attempt. -/
theorem exists_outcome (h : Selects outcome n (.ok d)) : ∃ k < n, outcome k = .ok d := by
  generalize hr : (Except.ok d : Except DrawingError Drawing) = r at h
  cases h with
  | @stopped k hk _ _ =>
      refine ⟨k, hk, ?_⟩
      cases hk : outcome k <;> rw [hk] at hr <;> cases hr
      rfl
  | least _ hd =>
      cases hr
      obtain ⟨-, k, hk, hd, -⟩ := hd
      exact ⟨k, hk, hd⟩
  | degenerate _ => cases hr

/-- A drawing that did not converge is the best of all that were attempted. -/
theorem least_of_not_converged (h : Selects outcome n (.ok d)) (hd : d.report.converged = false) :
    Least outcome n d := by
  generalize hr : (Except.ok d : Except DrawingError Drawing) = r at h
  cases h with
  | @stopped k _ _ hstops =>
      cases hk : outcome k <;> rw [hk] at hr hstops <;> cases hr
      exact (Bool.false_ne_true (hd.symm.trans hstops)).elim
  | least _ h =>
      cases hr
      exact h
  | degenerate _ => cases hr

theorem error_degenerate_iff {r : Except DrawingError Drawing} (h : Selects outcome n r) :
    r = .error .degenerate ↔ ∀ k < n, Degenerate (outcome k) := by
  cases h with
  | @stopped k hk _ hstops =>
      refine ⟨fun hr => ?_, fun hall => ?_⟩
      · cases hk : outcome k <;> rw [hk] at hr <;> cases hr
      · have := hall k hk
        cases hk : outcome k with
        | ok d =>
            rw [hk] at this
            exact this.elim
        | error e =>
            rw [hk] at this hstops
            exact (hstops this).elim
  | least _ hd =>
      obtain ⟨-, k, hk, hd, -⟩ := hd
      refine ⟨nofun, fun hall => ?_⟩
      have := hall k hk
      rw [hd] at this
      exact this.elim
  | degenerate h => exact ⟨fun _ => h, fun _ => rfl⟩

end Selects

section Build

variable {s : DrawingSettings} {is : List Instruction} {seed : UInt64} {n : Nat} {d : Drawing}

theorem attempt_seed (h : attempt s is seed = .ok d) : d.seed = seed := by
  rw [attempt_eq] at h
  cases hd : draft s is seed <;> rw [hd] at h <;> cases h
  rfl

theorem build_selects_outcome (s : DrawingSettings) (is : List Instruction) (seed : UInt64) (n : Nat) :
    Selects (fun k => attempt s is (seedAfter seed k)) (max n 1) (build s is seed n) := by
  have hselects : Selects (fun k => attempt s is (seedAfter seed k)) (0 + max n 1)
      (seek (attempt s is) (max n 1) (seedAfter seed 0) none) :=
    seek_selects (fun _ hj => (Nat.not_lt_zero _ hj).elim) fun _ hj => (Nat.not_lt_zero _ hj).elim
  rwa [seedAfter_zero, Nat.zero_add] at hselects

/-- A drawing is had again from its seed in one attempt. -/
theorem build_again (h : build s is seed n = .ok d) : build s is d.seed 1 = .ok d := by
  have hselects := build_selects_outcome s is seed n
  rw [h] at hselects
  obtain ⟨k, -, hk⟩ := hselects.exists_outcome
  rw [← attempt_seed hk] at hk
  change seek (attempt s is) 1 d.seed none = .ok d
  unfold seek
  rw [hk]
  dsimp only
  split <;> rfl

end Build

end Drawing

open Drawing

namespace CommandLine

variable {o : BuildOptions} {text : String} {is : List Instruction}

theorem draw_eq (h : Instruction.parse? text = some is) :
    draw o text = (Drawing.build o.settings is o.seed o.attempts).mapError fun
      | .refused e => .compiling e
      | .degenerate => .degenerate := by
  unfold draw
  rw [h]
  dsimp only
  cases Drawing.build o.settings is o.seed o.attempts with
  | ok d => rfl
  | error e => cases e <;> rfl

theorem draw_eq_ok (h : Instruction.parse? text = some is) {d : Drawing} :
    draw o text = .ok d ↔ Drawing.build o.settings is o.seed o.attempts = .ok d := by
  rw [draw_eq h]
  cases Drawing.build o.settings is o.seed o.attempts with
  | ok d => exact ⟨fun hd => by cases hd; rfl, fun hd => by cases hd; rfl⟩
  | error e => exact ⟨nofun, nofun⟩

/-- No other failure is worded like that of parallel lines in every attempt. -/
theorem draw_degenerate_iff (h : Instruction.parse? text = some is) :
    (∃ f, draw o text = .error f ∧ f.message = "every attempt hit a numeric degeneracy") ↔
      Drawing.build o.settings is o.seed o.attempts = .error .degenerate := by
  rw [draw_eq h]
  cases Drawing.build o.settings is o.seed o.attempts with
  | ok d => exact ⟨nofun, nofun⟩
  | error e =>
      cases e with
      | degenerate => exact ⟨fun _ => rfl, fun _ => ⟨_, rfl, rfl⟩⟩
      | refused e =>
          refine ⟨?_, nofun⟩
          rintro ⟨f, hf, hmessage⟩
          cases hf
          change "compiling instructions" = _ at hmessage
          exact absurd hmessage (by decide)

end CommandLine

/-- Attempts are made from one seed after the other, at least one. The first that converged, or that
found the instructions wrong, decides, and no further attempt counts. If there is none, the result
is the drawing of least loss, of several the earliest, and its loss is a number if any is; without
any drawing, every attempt met parallel lines, which is the only reason for this message. The seed
of a drawing leads to it in a single attempt. -/
theorem Drawing.build_selects :
    (∀ (s : DrawingSettings) (is : List Instruction) (seed : UInt64) (n : Nat),
      let outcome := fun k => attempt s is (seedAfter seed k)
      Selects outcome (max n 1) (build s is seed n) ∧
      (∀ attempt', (∀ k < max n 1, (∀ j < k, ¬ Stops (outcome j)) →
          attempt' (seedAfter seed k) = outcome k) →
        seek attempt' (max n 1) seed none = build s is seed n) ∧
      (build s is seed n = .error .degenerate ↔ ∀ k < max n 1, Degenerate (outcome k)) ∧
      ∀ d, build s is seed n = .ok d →
        (d.report.converged = false → d.report.finalLoss.isNaN = true →
          ∀ k < max n 1, ∀ d', outcome k = .ok d' → d'.report.finalLoss.isNaN = true) ∧
        build s is d.seed 1 = .ok d) ∧
    ∀ (o : CommandLine.BuildOptions) (text : String) (is : List Instruction),
      Instruction.parse? text = some is →
      ((∃ f, CommandLine.draw o text = .error f ∧
          f.message = "every attempt hit a numeric degeneracy") ↔
        ∀ k < max o.attempts 1, Degenerate (attempt o.settings is (seedAfter o.seed k))) ∧
      ∀ d, CommandLine.draw o text = .ok d →
        CommandLine.draw { o with seed := d.seed, attempts := 1 } text = .ok d := by
  constructor
  · intro s is seed n outcome
    have hselects := build_selects_outcome s is seed n
    refine ⟨hselects, fun attempt' h => seek_congr h, hselects.error_degenerate_iff,
      fun d hd => ⟨fun hconverged hnan k hk d' hd' => ?_, build_again hd⟩⟩
    rw [hd] at hselects
    have hle := (hselects.least_of_not_converged hconverged).le k hk d' hd'
    by_contra hnumber
    have hless : lessLoss d'.report.finalLoss d.report.finalLoss = true := by
      unfold lessLoss
      rw [if_neg hnumber, if_pos hnan]
    exact absurd ((lessLoss_iff ..).mp hless) (not_lt.mpr hle)
  · intro o text is htext
    refine ⟨?_, fun d hd => ?_⟩
    · rw [CommandLine.draw_degenerate_iff htext]
      exact (build_selects_outcome o.settings is o.seed o.attempts).error_degenerate_iff
    · rw [CommandLine.draw_eq_ok htext] at hd ⊢
      exact build_again hd

/-- Without iterations no right triangle comes of an equilateral one. The attempt from the greatest
seed is kept, as the next ones, from zero on, are no better. -/
theorem Drawing.build_selects_earliest_of_ties :
    let s : DrawingSettings :=
      ⟨.standard, { Descent.Settings.standard with maxIterations := 0 }⟩
    let is : List Instruction :=
      [.sample ["A", "B", "C"] "equiTri" [], .assert ⟨"perp", ["A", "B", "B", "C"], false⟩]
    let seed : UInt64 := 0xFFFFFFFFFFFFFFFF
    let o : CommandLine.BuildOptions :=
      ⟨.ofString "figure.json", seed, 3, 5000, 1e-10, 0.0, 0.0, none⟩
    (∃ d, build s is seed 3 = .ok d ∧ d.seed = seed ∧
      Least (fun k => attempt s is (seedAfter seed k)) 3 d ∧ build s is seed 1 = .ok d) ∧
    Instruction.parse? "[]" = some [] ∧
    ∃ d, CommandLine.draw o "[]" = .ok d ∧
      CommandLine.draw { o with seed := d.seed, attempts := 1 } "[]" = .ok d := by
  intro s is seed o
  have hbuild : (build s is seed 3).toOption.map (fun d => (d.seed, d.report.converged)) =
      some (seed, false) := by
    decide +kernel
  have hparse : Instruction.parse? "[]" = some [] := by decide +kernel
  have hdraw : (CommandLine.draw o "[]").toOption.isSome := by decide +kernel
  refine ⟨?_, hparse, ?_⟩
  · cases hd : build s is seed 3 with
    | error e =>
        rw [hd] at hbuild
        cases hbuild
    | ok d =>
        rw [hd] at hbuild
        obtain ⟨hseed, hconverged⟩ := Prod.mk.inj (Option.some.inj hbuild)
        have hselects := build_selects.1 s is seed 3
        have hagain := (hselects.2.2.2 d hd).2
        rw [hseed] at hagain
        refine ⟨d, rfl, hseed, ?_, hagain⟩
        rw [hd] at hselects
        exact hselects.1.least_of_not_converged hconverged
  · cases hd : CommandLine.draw o "[]" with
    | error e =>
        rw [hd] at hdraw
        cases hdraw
    | ok d => exact ⟨d, rfl, (build_selects.2 o "[]" [] hparse).2 d hd⟩

end PlaneFigure
