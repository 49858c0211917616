import PlaneFigure.Drawing.Attempts
import PlaneFigure.Proofs.Draft.Outline
import PlaneFigure.Proofs.Draft.Refusal

/-!
What does not depend on numbers. Parallel lines apart, instructions alone determine whether a draft
is refused, for which reason, and what its outline is, whatever the initial values, the scalars and
the tolerance. So if a figure can be drafted from one seed, no other seed finds it wrong.
-/

namespace PlaneFigure

/-- What can be told about the action of an instruction depends on the names of the points only. -/
theorem PointTable.check_outline {S S' R : Type} [Number R] {t : PointTable S} {u : PointTable S'}
    (h : t.names = u.names) (i : Instruction) :
    (t.check i).map (Action.outline (R := R)) = (u.check i).map Action.outline := by
  -- both tables are compared with that of their names, in which points have no coordinates
  have hforget : ∀ {T : Type} (v : PointTable T),
      (v.check i).map (Action.outline (R := R)) =
        ((⟨v.names.map fun name => (name, ⟨(), ()⟩)⟩ : PointTable Unit).check i).map
          Action.outline := by
    intro T v
    have hmap : v.map (fun _ => ()) = ⟨v.names.map fun name => (name, ⟨(), ()⟩)⟩ := by
      rw [names, List.map_map]
      rfl
    rw [← hmap, check_map]
    cases v.check i with
    | error e => rfl
    | ok a => exact congrArg Except.ok (a.outline_map _).symm
  rw [hforget t, hforget u, h]

namespace Draft

section Outline

variable {S R μ : Type} [Number R]

def outline (d : Draft S R μ) : Outline R where
  points := d.points.names
  losses := d.losses.entries.map fun e => (e.1, e.2.weight)
  vars := d.canvas.varNames

variable [Scalar S R μ] {d d' : Draft S R μ}

theorem process_outline [Uniform R] {i : Instruction} {x : Addition S R}
    (h : process i d = (.ok x, d')) :
    ∃ a, d.points.check i = .ok a ∧ d'.outline = d.outline.append a.outline := by
  obtain ⟨a, c, hcheck, hrun, rfl⟩ := process_ok h
  obtain ⟨hpoints, hlosses, hvars⟩ := Action.run_outline hrun
  refine ⟨a, hcheck, ?_⟩
  unfold outline Outline.append
  rw [← hpoints, ← hlosses, ← hvars]
  congr 1
  · exact List.map_append
  · exact List.map_append

omit [Scalar S R μ] in
/-- A loss on all points is added if it counts at all. -/
theorem regularize_outline (label : String) (weight : R) (enough : Bool)
    (residual : List (Point S) → StateM μ S) :
    (d.regularize label weight enough residual).outline =
      d.outline.append
        { losses := if Number.lt 0.0 weight && enough then [(label, weight)] else [] } := by
  let r := residual (d.points.entries.map (·.2)) d.canvas.memory
  have heq : d.regularize label weight enough residual =
      if Number.lt 0.0 weight && enough then
        { d with canvas.memory := r.2, losses := d.losses.append [(label, ⟨r.1, weight⟩)] }
      else d :=
    rfl
  rw [heq]
  split
  · simp [outline, Outline.append, LossTable.append, Canvas.varNames]
  · simp [outline, Outline.append]

/-- The losses on all points that the settings ask for. -/
def finishing (s : DraftSettings R) (n : Nat) : List (String × R) :=
  (if Number.lt 0.0 s.regularizePoints && decide (0 < n) then
    [("points-norm", s.regularizePoints)] else []) ++
  if Number.lt 0.0 s.makeDistinct && decide (1 < n) then
    [("points-distinct", s.makeDistinct)] else []

theorem finish_outline :
    d.finish.outline =
      d.outline.append { losses := finishing d.settings d.outline.points.length } := by
  have hlength : d.points.entries.length = d.outline.points.length := by
    simp [outline, PointTable.names]
  have hsettings : (d.regularize "points-norm" d.settings.regularizePoints
      (0 < d.points.entries.length) Regularizer.meanNorm).settings = d.settings := by
    unfold regularize
    split <;> rfl
  unfold finish
  rw [regularize_outline, regularize_outline, hsettings, hlength]
  simp [Outline.append, finishing]

end Outline

section Double

variable {S S' μ μ' : Type} {d : Draft S Float μ} {e : Draft S' Float μ'}

/-- The drafts are refused for the same reason, or they have the same outline, unless lines are
parallel in one of them. -/
def Agree : Except DraftError (Draft S Float μ) → Except DraftError (Draft S' Float μ') → Prop
  | .ok d, .ok e => d.outline = e.outline
  | .ok _, .error err => err.kind = .numericDegeneracy
  | .error err, .ok _ => err.kind = .numericDegeneracy
  | .error err, .error err' =>
    err = err' ∨ err.kind = .numericDegeneracy ∨ err'.kind = .numericDegeneracy

theorem agree_of_degenerate_left {err : DraftError} (h : err.kind = .numericDegeneracy)
    (r' : Except DraftError (Draft S' Float μ')) :
    Agree (.error err : Except DraftError (Draft S Float μ)) r' := by
  cases r' with
  | error err' => exact .inr (.inl h)
  | ok e => exact h

theorem agree_of_degenerate_right {err : DraftError} (h : err.kind = .numericDegeneracy)
    (r : Except DraftError (Draft S Float μ)) :
    Agree r (.error err : Except DraftError (Draft S' Float μ')) := by
  cases r with
  | error err' => exact .inr (.inr h)
  | ok d => exact h

variable [Scalar S Float μ] [Scalar S' Float μ']

/-- Apart from parallel lines, an instruction is refused by its checks only. -/
theorem check_of_process_error {d' : Draft S Float μ} {i : Instruction} {err : DraftError}
    (h : process i d = (.error err, d')) :
    d.points.check i = .error err ∨ err.kind = .numericDegeneracy := by
  unfold process at h
  split at h
  · cases h
    exact .inl ‹_›
  split at h
  · cases h
  next herr =>
    cases h
    obtain ⟨p, v, -, hplace⟩ | ⟨l, m, rfl⟩ := Action.run_refused herr
    · obtain ⟨x, c, hgranted⟩ := p.place_granted (S := S) d.canvas
      rw [hgranted] at hplace
      cases hplace
    · exact .inr rfl

theorem processAll_agree (is : List Instruction) (h : d.outline = e.outline) :
    Agree (processAll is d) (processAll is e) := by
  induction is generalizing d e with
  | nil => exact h
  | cons i is ih =>
      have hcheck := PointTable.check_outline (R := Float) (congrArg Outline.points h) i
      rcases hd : process i d with ⟨err | x, d'⟩ <;> rcases he : process i e with ⟨err' | y, e'⟩ <;>
        simp only [processAll, hd, he]
      · -- both are refused
        obtain hd | hd := check_of_process_error hd
        · obtain he | he := check_of_process_error he
          · rw [hd, he] at hcheck
            cases hcheck
            exact .inl rfl
          · exact .inr (.inr he)
        · exact .inr (.inl hd)
      · obtain ⟨a, he, -⟩ := process_outline he
        obtain hd | hd := check_of_process_error hd
        · rw [hd, he] at hcheck
          cases hcheck
        · exact agree_of_degenerate_left hd _
      · obtain ⟨a, hd, -⟩ := process_outline hd
        obtain he | he := check_of_process_error he
        · rw [hd, he] at hcheck
          cases hcheck
        · exact agree_of_degenerate_right he _
      · -- both are carried out
        obtain ⟨a, hd, had⟩ := process_outline hd
        obtain ⟨b, he, hbe⟩ := process_outline he
        rw [hd, he] at hcheck
        injection hcheck with hab
        exact ih (by rw [had, hbe, h, hab])

theorem ofInstructions_agree {c : Canvas Float μ} {c' : Canvas Float μ'}
    {s s' : DraftSettings Float} (hc : c.varNames = c'.varNames)
    (hpoints : s.regularizePoints = s'.regularizePoints) (hdistinct : s.makeDistinct = s'.makeDistinct)
    (is : List Instruction) :
    Agree (ofInstructions c s is : Except DraftError (Draft S Float μ))
      (ofInstructions c' s' is : Except DraftError (Draft S' Float μ')) := by
  have hstart : (⟨c, s, {}, {}⟩ : Draft S Float μ).outline =
      (⟨c', s', {}, {}⟩ : Draft S' Float μ').outline :=
    congrArg (Outline.mk [] []) hc
  have hall := processAll_agree is hstart
  unfold ofInstructions
  cases hd : processAll is (⟨c, s, {}, {}⟩ : Draft S Float μ) <;>
    cases he : processAll is (⟨c', s', {}, {}⟩ : Draft S' Float μ') <;> rw [hd, he] at hall
  · exact hall
  · exact hall
  · exact hall
  · change outline _ = outline _
    have hsame : finishing s = finishing s' := by
      unfold finishing
      rw [hpoints, hdistinct]
    rw [finish_outline, finish_outline, processAll_settings hd, processAll_settings he, hall, hsame]

end Double

end Draft

namespace Drawing

/-- The draft of the drawing of a seed. -/
def draft (s : DrawingSettings) (is : List Instruction) (seed : UInt64) :
    Except DraftError FormulaDraft :=
  Draft.ofInstructions (Canvas.start Graph.empty (.uniform seed)) s.draft is

/-- A drawing is refused where its draft is. -/
theorem attempt_eq (s : DrawingSettings) (is : List Instruction) (seed : UInt64) :
    attempt s is seed = (draft s is seed).map fun d =>
      let r := FormulaDraft.minimize s.descent d
      FormulaDraft.drawing seed r.1.report r.2 := by
  dsimp only [attempt]
  change draft s is seed >>= _ = _
  cases draft s is seed <;> rfl

variable {s : DrawingSettings} {is : List Instruction} {seed seed' : UInt64} {d : Drawing}

theorem attempt_error {e : DraftError} (h : attempt s is seed = .ok d)
    (h' : attempt s is seed' = .error e) : e.kind = .numericDegeneracy := by
  have hstart : ∀ seed, (Canvas.start Graph.empty (.uniform seed) :
      Canvas Float (Graph Float)).varNames = [] :=
    fun _ => rfl
  have hagree : Draft.Agree (draft s is seed) (draft s is seed') :=
    Draft.ofInstructions_agree ((hstart seed).trans (hstart seed').symm) rfl rfl is
  rw [attempt_eq] at h h'
  generalize draft s is seed = r at hagree h
  generalize draft s is seed' = r' at hagree h'
  cases r <;> cases h
  cases r' <;> cases h'
  exact hagree

theorem exists_attempt (h : (draft s is seed).isOk = true) : ∃ d, attempt s is seed = .ok d := by
  rw [attempt_eq]
  cases hd : draft s is seed with
  | error e =>
      rw [hd] at h
      cases h
  | ok d => exact ⟨_, rfl⟩

theorem seek_refused {n : Nat} {best : Option Drawing} {e : DraftError}
    (h : seek (attempt s is) n seed best = .error (.refused e)) :
    ∃ seed', attempt s is seed' = .error e ∧ e.kind ≠ .numericDegeneracy := by
  induction n generalizing seed best with
  | zero => cases best <;> cases h
  | succ n ih =>
      unfold seek at h
      split at h
      · split at h
        · cases h
        · exact ih h
      · split at h
        · exact ih h
        · cases h
          exact ⟨seed, ‹_›, ‹_›⟩

end Drawing

namespace Draft

/-- No two lines of the instructions were found parallel. -/
def Transversal {S μ : Type} (r : Except DraftError (Draft S Float μ)) : Prop :=
  ∀ e, r = .error e → e.kind ≠ .numericDegeneracy

/-- Parallel lines apart, the instructions alone decide what becomes of a draft: with any scalars, any
initial values and pins, and any tolerance, but with the same weights of the losses on all points, it
is refused with the same error, or it has the same outline. So once there is a drawing from one seed,
only parallel lines can prevent a drawing from another, and no sequence of attempts is refused. -/
theorem outline_determined :
    (∀ {S S' μ μ' : Type} [Scalar S Float μ] [Scalar S' Float μ'] (c : Canvas Float μ)
      (c' : Canvas Float μ') (s s' : DraftSettings Float) (is : List Instruction),
      c.vars = #[] → c'.vars = #[] → s.regularizePoints = s'.regularizePoints →
      s.makeDistinct = s'.makeDistinct →
      Transversal (ofInstructions c s is : Except DraftError (Draft S Float μ)) →
      Transversal (ofInstructions c' s' is : Except DraftError (Draft S' Float μ')) →
      (ofInstructions c s is : Except DraftError (Draft S Float μ)).map outline =
        (ofInstructions c' s' is : Except DraftError (Draft S' Float μ')).map outline) ∧
    ∀ (s : DrawingSettings) (is : List Instruction) (seed : UInt64) (d : Drawing),
      Drawing.attempt s is seed = .ok d →
      (∀ seed' e, Drawing.attempt s is seed' = .error e → e.kind = .numericDegeneracy) ∧
        ∀ seed' n e, Drawing.build s is seed' n ≠ .error (.refused e) := by
  constructor
  · intro S S' μ μ' _ _ c c' s s' is hc hc' hpoints hdistinct h h'
    have hstart : c.varNames = c'.varNames := by
      rw [Canvas.varNames, Canvas.varNames, hc, hc']
    have hagree : Agree (ofInstructions c s is : Except DraftError (Draft S Float μ))
        (ofInstructions c' s' is : Except DraftError (Draft S' Float μ')) :=
      ofInstructions_agree hstart hpoints hdistinct is
    cases hr : (ofInstructions c s is : Except DraftError (Draft S Float μ)) <;>
      cases hr' : (ofInstructions c' s' is : Except DraftError (Draft S' Float μ')) <;>
      rw [hr, hr'] at hagree
    · obtain rfl | hdegenerate | hdegenerate := hagree
      · rfl
      · exact (h _ hr hdegenerate).elim
      · exact (h' _ hr' hdegenerate).elim
    · exact (h _ hr hagree).elim
    · exact (h' _ hr' hagree).elim
    · exact congrArg Except.ok hagree
  · intro s is seed d hd
    refine ⟨fun _ _ => Drawing.attempt_error hd, fun _ _ e hbuild => ?_⟩
    obtain ⟨_, hrefused, hkind⟩ := Drawing.seek_refused hbuild
    exact hkind (Drawing.attempt_error hd hrefused)

/-- A triangle with an altitude, on numbers and as formulas, with different initial values and
tolerances; and then its drawing from any seed. -/
theorem outline_altitude :
    let is : List Instruction := [.sample ["A", "B", "C"] "uniform" [],
      .compute "H" ⟨"orthocenter", [.point "A", .point "B", .point "C"]⟩,
      .assert ⟨"perp", ["A", "H", "B", "C"], false⟩]
    (ofInstructions (Canvas.start () (.constant 0.5)) .standard is :
        Except DraftError (Draft Float Float Unit)).map outline =
      (ofInstructions (Canvas.start Graph.empty (.uniform 7)) ⟨0.0, 0.0, 1.0⟩ is :
        Except DraftError FormulaDraft).map outline ∧
    ∀ seed e, Drawing.attempt ⟨.standard, .standard⟩ is seed = .error e →
      e.kind = .numericDegeneracy := by
  intro is
  have hok : ∀ {S μ : Type} (r : Except DraftError (Draft S Float μ)), r.isOk = true →
      Transversal r := by
    rintro S μ r hr e rfl
    cases hr
  have hdraft : (Drawing.draft ⟨.standard, .standard⟩ is 7).isOk = true := by decide +kernel
  obtain ⟨d, hd⟩ := Drawing.exists_attempt hdraft
  exact ⟨outline_determined.1 _ _ _ _ is rfl rfl rfl rfl (hok _ (by decide +kernel))
    (hok _ (by decide +kernel)), (outline_determined.2 _ is 7 d hd).1⟩

end Draft

end PlaneFigure
