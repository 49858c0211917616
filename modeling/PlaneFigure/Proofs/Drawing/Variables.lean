import PlaneFigure.Proofs.Draft.Variables
import PlaneFigure.Proofs.Drawing.Attempts

/-!
The variables that a drawing tells. It lists their final values by name, so of variables with one
name only the last is told, and the others cannot be had from the drawing again.
-/

namespace PlaneFigure

/-- A descent gives variables other values, and nothing else. -/
theorem FormulaDraft.minimize_varNames (s : Descent.Settings Float) (d : FormulaDraft) :
    (FormulaDraft.minimize s d).2.canvas.varNames = d.canvas.varNames := by
  have hset : ∀ (c : Canvas Float (Graph Float)) xs, (c.setAll xs).varNames = c.varNames := by
    intro c xs
    refine List.ext_getElem? fun i => ?_
    simp [Canvas.setAll, Canvas.varNames, Function.comp_def]
  exact hset _ _

namespace Drawing

variable {s : DrawingSettings} {is : List Instruction} {seed : UInt64} {n : Nat} {D : Drawing}

/-- A drawing is that of the draft of its seed, after the descent. -/
theorem build_draft (h : build s is seed n = .ok D) :
    ∃ d, draft s is D.seed = .ok d ∧
      let r := FormulaDraft.minimize s.descent d
      D = FormulaDraft.drawing D.seed r.1.report r.2 := by
  have hselects := build_selects_outcome s is seed n
  rw [h] at hselects
  obtain ⟨k, -, hk⟩ := hselects.exists_outcome
  rw [← attempt_seed hk, attempt_eq] at hk
  cases hd : draft s is D.seed with
  | error e =>
      rw [hd] at hk
      cases hk
  | ok d =>
      rw [hd] at hk
      exact ⟨d, rfl, (Except.ok.inj hk).symm⟩

theorem draft_varNames {d : FormulaDraft} (h : draft s is seed = .ok d) :
    d.canvas.varNames = is.flatMap Instruction.varNames :=
  (Draft.ofInstructions_varNames h).trans (List.nil_append _)

/-- There is an entry for every variable just if no two of them have one name. -/
theorem drawing_vars_length {seed : UInt64} {report : Descent.Report Float} {d : FormulaDraft} :
    (FormulaDraft.drawing seed report d).vars.length = d.canvas.vars.size ↔
      d.canvas.varNames.Nodup := by
  have h := @NameMap.length_ofEntries_eq_iff Float
    (d.canvas.vars.toList.map fun v => (v.name, v.value))
  rw [List.length_map, List.map_map] at h
  exact h

/-- A drawing lists the names of the variables that its instructions create, each once, with the final
value of the last variable of that name. So it tells all of the variables, and the value of each,
just if the instructions create no two variables of one name. -/
theorem build_vars (h : build s is seed n = .ok D) :
    ∃ d, draft s is D.seed = .ok d ∧
      let r := FormulaDraft.minimize s.descent d
      let vars := r.2.canvas.vars.toList
      D = FormulaDraft.drawing D.seed r.1.report r.2 ∧
      vars.map (·.name) = is.flatMap Instruction.varNames ∧
      NameMap.Ordered D.vars ∧
      (∀ name, List.lookup name D.vars =
        List.lookup name (vars.map fun v => (v.name, v.value)).reverse) ∧
      (D.vars.length = vars.length ↔ (is.flatMap Instruction.varNames).Nodup) ∧
      ((is.flatMap Instruction.varNames).Nodup →
        List.Perm D.vars (vars.map fun v => (v.name, v.value))) := by
  obtain ⟨d, hd, hD⟩ := build_draft h
  refine ⟨d, hd, ?_⟩
  intro r vars
  have hnames : vars.map (·.name) = is.flatMap Instruction.varNames :=
    (FormulaDraft.minimize_varNames s.descent d).trans (draft_varNames hd)
  have hvars : D.vars = NameMap.ofEntries (vars.map fun v => (v.name, v.value)) :=
    congrArg Drawing.vars hD
  have hentries : (vars.map fun v => (v.name, v.value)).map (·.1) = vars.map (·.name) :=
    List.map_map ..
  refine ⟨hD, hnames, ?_, fun name => ?_, ?_, fun hnodup => ?_⟩
  · rw [hvars]
    exact NameMap.ofEntries_ordered _
  · rw [hvars]
    exact NameMap.lookup_ofEntries
  · rw [← hnames, hD]
    exact drawing_vars_length
  · rw [hvars]
    exact NameMap.ofEntries_perm (hentries ▸ hnames ▸ hnodup)

/-- Of two free points, all four coordinates are told. -/
theorem build_vars_two_points :
    let is : List Instruction := [.sample ["A", "B"] "uniform" []]
    ∃ D d, build ⟨.standard, .standard⟩ is 0 1 = .ok D ∧
      draft ⟨.standard, .standard⟩ is D.seed = .ok d ∧
      List.Perm D.vars ((FormulaDraft.minimize .standard d).2.canvas.vars.toList.map
        fun v => (v.name, v.value)) := by
  intro is
  have hbuild : (build ⟨.standard, .standard⟩ is 0 1).isOk = true := by decide +kernel
  cases hD : build ⟨.standard, .standard⟩ is 0 1 with
  | error e =>
      rw [hD] at hbuild
      cases hbuild
  | ok D =>
      obtain ⟨d, hd, -, -, -, -, -, hperm⟩ := build_vars hD
      exact ⟨D, d, rfl, hd, hperm (by decide)⟩

/-- Of two acute triangles, with four variables, only those of the second are told. -/
theorem two_triangles_share_variables :
    let is : List Instruction :=
      [.sample ["A", "B", "C"] "acuteTri" [], .sample ["D", "E", "F"] "acuteTri" []]
    ∃ D d, build ⟨.standard, .standard⟩ is 0 1 = .ok D ∧
      draft ⟨.standard, .standard⟩ is D.seed = .ok d ∧
      (FormulaDraft.minimize .standard d).2.canvas.varNames = ["tri_x", "tri", "tri_x", "tri"] ∧
      D.vars.names = ["tri", "tri_x"] := by
  intro is
  have hbuild : (build ⟨.standard, .standard⟩ is 0 1).toOption.map (fun D => D.vars.names) =
      some ["tri", "tri_x"] := by
    decide +kernel
  cases hD : build ⟨.standard, .standard⟩ is 0 1 with
  | error e =>
      rw [hD] at hbuild
      cases hbuild
  | ok D =>
      rw [hD] at hbuild
      obtain ⟨d, hd, -⟩ := build_draft hD
      refine ⟨D, d, rfl, hd, ?_, Option.some.inj hbuild⟩
      rw [FormulaDraft.minimize_varNames, draft_varNames hd]
      rfl

end Drawing

end PlaneFigure
