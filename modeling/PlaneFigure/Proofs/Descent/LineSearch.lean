import PlaneFigure.Descent.Basic

/-!
The line search moves the variables in place. Whatever earlier trials left in them, a trial puts
every variable that it moves where the start of the iteration and the step length say, and moving
back restores what was there before.
-/

namespace PlaneFigure.Descent

variable {R : Type}

/-- Write values at positions, one after the other. -/
def writeAll (writes : List (Nat × R)) (values : Array R) : Array R :=
  writes.foldl (fun values w => values.setIfInBounds w.1 w.2) values

/-- Two arrays that differ at some positions at most. -/
structure AgreeOff (positions : List Nat) (v w : Array R) : Prop where
  size : v.size = w.size
  get : ∀ i, i ∉ positions → v[i]? = w[i]?

theorem AgreeOff.refl (positions : List Nat) (v : Array R) : AgreeOff positions v v :=
  ⟨rfl, fun _ _ => rfl⟩

theorem AgreeOff.trans {positions : List Nat} {u v w : Array R} (huv : AgreeOff positions u v)
    (hvw : AgreeOff positions v w) : AgreeOff positions u w :=
  ⟨huv.size.trans hvw.size, fun i hi => (huv.get i hi).trans (hvw.get i hi)⟩

theorem AgreeOff.mono {positions more : List Nat} {v w : Array R} (h : AgreeOff positions v w)
    (hsub : positions ⊆ more) : AgreeOff more v w :=
  ⟨h.size, fun i hi => h.get i fun hmem => hi (hsub hmem)⟩

/-- A write agrees the arrays at its position. -/
theorem AgreeOff.setIfInBounds {i : Nat} {positions : List Nat} {v w : Array R}
    (h : AgreeOff (i :: positions) v w) (x : R) :
    AgreeOff positions (v.setIfInBounds i x) (w.setIfInBounds i x) := by
  refine ⟨by simp [h.size], fun j hj => ?_⟩
  by_cases hij : i = j
  · subst hij
    simp [Array.getElem?_setIfInBounds_self, h.size]
  · rw [Array.getElem?_setIfInBounds_ne hij, Array.getElem?_setIfInBounds_ne hij]
    exact h.get j (by simp [Ne.symm hij, hj])

/-- What was at the written positions before does not matter. -/
theorem writeAll_overwrites (writes : List (Nat × R)) {v w : Array R}
    (h : AgreeOff (writes.map (·.1)) v w) : writeAll writes v = writeAll writes w := by
  induction writes generalizing v w with
  | nil =>
      refine Array.ext_getElem? fun i => ?_
      exact h.get i (by simp)
  | cons a writes ih => exact ih (h.setIfInBounds a.2)

theorem writeAll_agreeOff (writes : List (Nat × R)) (v : Array R) :
    AgreeOff (writes.map (·.1)) (writeAll writes v) v := by
  induction writes generalizing v with
  | nil => exact .refl _ v
  | cons a writes ih =>
      have hrest : AgreeOff (a.1 :: writes.map (·.1)) (writeAll writes (v.setIfInBounds a.1 a.2))
          (v.setIfInBounds a.1 a.2) := (ih _).mono (List.subset_cons_self ..)
      have hhere : AgreeOff (a.1 :: writes.map (·.1)) (v.setIfInBounds a.1 a.2) v := by
        refine ⟨by simp, fun j hj => ?_⟩
        rw [Array.getElem?_setIfInBounds_ne]
        rintro rfl
        exact hj List.mem_cons_self
      exact hrest.trans hhere

/-- Writing everywhere what is there already. -/
theorem writeAll_self (writes : List (Nat × R)) (v : Array R)
    (h : ∀ w ∈ writes, v.setIfInBounds w.1 w.2 = v) : writeAll writes v = v := by
  induction writes with
  | nil => rfl
  | cons a writes ih =>
      rw [writeAll, List.foldl_cons, h a List.mem_cons_self]
      exact ih fun w hw => h w (List.mem_cons_of_mem _ hw)

variable [Number R]

theorem moveAll_eq_writeAll (moving : List Nat) (starts slope : List R) (step : R)
    (v : Array R) :
    moveAll moving starts slope step v =
      writeAll ((moving.zip (starts.zip slope)).map fun m => (m.1, m.2.1 - step * m.2.2)) v := by
  rw [moveAll, writeAll, List.foldl_map]

theorem moveAll_agreeOff (moving : List Nat) (starts slope : List R) (step : R) (v : Array R) :
    AgreeOff ((moving.zip (starts.zip slope)).map (·.1))
      (moveAll moving starts slope step v) v := by
  rw [moveAll_eq_writeAll]
  simpa [Function.comp_def] using writeAll_agreeOff
    ((moving.zip (starts.zip slope)).map fun m => (m.1, m.2.1 - step * m.2.2)) v

/-- A trial does not depend on where earlier trials left the moving variables. -/
theorem moveAll_overwrites {moving : List Nat} {starts slope : List R} {v w : Array R}
    (h : AgreeOff ((moving.zip (starts.zip slope)).map (·.1)) v w) (step : R) :
    moveAll moving starts slope step v = moveAll moving starts slope step w := by
  rw [moveAll_eq_writeAll, moveAll_eq_writeAll]
  refine writeAll_overwrites _ ?_
  simpa [Function.comp_def] using h

/-- Moving back after any trials restores the values from which they started. -/
theorem moveBack_restores {moving : List Nat} {v w : Array R} (h : AgreeOff moving w v) :
    moveBack moving (moving.map fun i => v.getD i 0.0) w = v := by
  have hzip : moving.zip (moving.map fun i => v.getD i 0.0) =
      moving.map fun i => (i, v.getD i 0.0) := by
    rw [List.zip_map_right, ← List.map_id moving, List.zip_map']
    simp [Function.comp_def]
  -- as far as `v` reaches, what is written is what is there
  have hself : writeAll (moving.map fun i => (i, v.getD i 0.0)) v = v := by
    refine writeAll_self _ v fun a ha => ?_
    obtain ⟨i, -, rfl⟩ := List.mem_map.mp ha
    refine Array.ext_getElem? fun j => ?_
    by_cases hij : i = j
    · subst hij
      by_cases hi : i < v.size <;> simp [hi]
    · rw [Array.getElem?_setIfInBounds_ne hij]
  change writeAll (moving.zip _) w = v
  rw [hzip, writeAll_overwrites _ (w := v) (by simpa [Function.comp_def] using h), hself]

/-- The step length of trial `k`, if trial `0` has the step length `step`. -/
def trialStep (s : Settings R) (step : R) : Nat → R
  | 0 => step
  | k + 1 => trialStep s (step * s.backtrack) k

namespace Objective

/-- The variables that move from the values `v`, each with its start and its derivative. -/
def moves (o : Objective R) (v : Array R) : List (Nat × R × R) :=
  o.moving.zip ((o.moving.map fun i => v.getD i 0.0).zip (o.slope v))

theorem moves_subset (o : Objective R) (v : Array R) : (o.moves v).map (·.1) ⊆ o.moving := by
  intro i hi
  obtain ⟨m, hm, rfl⟩ := List.mem_map.mp hi
  exact (List.of_mem_zip hm).1

/-- The values that a trial with a step length tries in place of `v`. -/
def trial (o : Objective R) (v : Array R) (step : R) : Array R :=
  moveAll o.moving (o.moving.map fun i => v.getD i 0.0) (o.slope v) step v

/-- The squared length of the gradient. -/
def slopeSq (o : Objective R) (v : Array R) : R :=
  Number.sum ((o.slope v).map fun d => d * d)

/-- Whether the line search from `p` accepts a trial with a step length. -/
def accepts (o : Objective R) (p : Position R) (step : R) : Bool :=
  acceptable p.loss (o.slopeSq p.values) step (o.loss (o.trial p.values step))

/-- What is left of the line search from `p` when the next of at most `n` trials is made on the
values `w`. -/
def searchFrom (o : Objective R) (s : Settings R) (p : Position R) (n : Nat) (step : R)
    (w : Array R) : Option (Trial R) × Array R :=
  search o s p.loss (o.moving.map fun i => p.values.getD i 0.0) (o.slope p.values)
    (o.slopeSq p.values) n step w

/-- A trial is accepted, or the search goes on from the values that it tried. Where earlier trials
left the moving variables does not matter. -/
theorem searchFrom_succ (o : Objective R) (s : Settings R) (p : Position R) (n : Nat) (step : R)
    {w : Array R} (hw : AgreeOff ((o.moves p.values).map (·.1)) w p.values) :
    o.searchFrom s p (n + 1) step w =
      if o.accepts p step then
        (some { loss := o.loss (o.trial p.values step), step }, o.trial p.values step)
      else o.searchFrom s p n (step * s.backtrack) (o.trial p.values step) := by
  have htrial : moveAll o.moving (o.moving.map fun i => p.values.getD i 0.0)
      (o.slope p.values) step w = o.trial p.values step :=
    moveAll_overwrites hw step
  rw [searchFrom, search, htrial]
  rfl

end Objective

/-- The line search from `p` accepts the first trial that is acceptable, or there is none, and then
nothing is changed but moving variables. -/
theorem search_cases (o : Objective R) (s : Settings R) (p : Position R) (n : Nat) (step : R)
    (w : Array R) (hw : AgreeOff ((o.moves p.values).map (·.1)) w p.values) :
    (∃ left, o.searchFrom s p n step w = (none, left) ∧ AgreeOff o.moving left p.values) ∨
    ∃ k < n, (∀ j < k, o.accepts p (trialStep s step j) = false) ∧
      o.accepts p (trialStep s step k) = true ∧
      o.searchFrom s p n step w =
        (some { loss := o.loss (o.trial p.values (trialStep s step k))
                step := trialStep s step k }, o.trial p.values (trialStep s step k)) := by
  induction n generalizing step w with
  | zero => exact .inl ⟨w, rfl, hw.mono (o.moves_subset p.values)⟩
  | succ n ih =>
      rw [o.searchFrom_succ s p n step hw]
      cases hacc : o.accepts p step with
      | true => exact .inr ⟨0, n.succ_pos, by simp, hacc, rfl⟩
      | false =>
          -- the trial is left in the values, but they differ from `p` where it moved them only
          have hoff : AgreeOff ((o.moves p.values).map (·.1)) (o.trial p.values step) p.values :=
            moveAll_agreeOff ..
          rcases ih (step * s.backtrack) (o.trial p.values step) hoff with
            ⟨left, hleft⟩ | ⟨k, hk, hbefore, hat, hfound⟩
          · exact .inl ⟨left, hleft⟩
          · refine .inr ⟨k + 1, by omega, ?_, hat, hfound⟩
            rintro (_ | j) hj
            · exact hacc
            · exact hbefore j (by omega)

end PlaneFigure.Descent
