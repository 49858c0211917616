import PlaneFigure.Proofs.Draft.Checks
import PlaneFigure.Proofs.Draft.Placed

/-!
How many points a triangle has. The samplers for triangles of some shape insist on three names. A
triangle of no shape is placed as a polygon before its names are counted, so it takes as many as
there are.
-/

namespace PlaneFigure

/-- The samplers for triangles, of some shape or of none. -/
def triangleSamplers : List String := "triangle" :: shapedSamplers

section Checks

variable {names args : List String} {id : String} {α : Type} {l : List Check}

theorem Decides.error_mem {e : DraftError} (h : Decides l (.error e : Except DraftError α)) :
    ∃ k ∈ l, k.passes = false ∧ k.error = e := by
  cases h with
  | refused _ hk => exact ⟨_, List.mem_append_right _ List.mem_cons_self, hk, rfl⟩

theorem Decides.passes {a : α} (h : Decides l (.ok a)) : ∀ k ∈ l, k.passes = true := by
  cases h with
  | accepted _ h => exact h

theorem newChecks_kind {isDefined : String → Bool} {k : Check}
    (hk : k ∈ newChecks isDefined names) : k.error.kind = .contractViolation := by
  obtain ⟨i, _, rfl⟩ := List.mem_mapIdx.mp hk
  rfl

theorem vertexChecks_kind {vertex? : Option String} {k : Check}
    (hk : k ∈ vertexChecks vertex? names) : k.error.kind = .contractViolation := by
  unfold vertexChecks at hk
  split at hk
  · rw [List.mem_singleton.mp hk]
    rfl
  · cases hk

theorem placementChecks_kind {k : Check} (hk : k ∈ placementChecks names id args) :
    k.error.kind = .contractViolation := by
  unfold placementChecks at hk
  split at hk
  · rw [List.mem_singleton.mp hk]
    rfl
  split at hk
  · obtain rfl | hk := List.mem_cons.mp hk
    · rfl
    · exact vertexChecks_kind hk
  · cases hk

/-- The samplers are known, so nothing but a contract can be violated. -/
theorem nameChecks_kind (hid : id ∈ triangleSamplers) {isDefined : String → Bool} {k : Check}
    (hk : k ∈ (Instruction.sample names id args).nameChecks isDefined) (hfails : k.passes = false) :
    k.error.kind = .contractViolation := by
  have hknown : ("uniform" :: polygonSamplers ++ shapedSamplers).contains id = true := by
    rw [List.contains_iff_mem]
    simp only [triangleSamplers, polygonSamplers, List.mem_cons, List.mem_append] at hid ⊢
    tauto
  rw [Instruction.nameChecks, samplerChecks, List.mem_append, List.mem_append] at hk
  obtain hk | hk | hk := hk
  · rw [hknown] at hk
    obtain rfl | rfl : k = _ ∨ k = _ := by simpa using hk
    · cases hfails
    · rfl
  · exact newChecks_kind hk
  · exact placementChecks_kind hk

/-- Only triangles of no shape have other names than three. -/
theorem length_of_placementChecks (hid : id ∈ triangleSamplers)
    (h : ∀ k ∈ placementChecks names id args, k.passes = true) :
    3 ≤ names.length ∧ (id ≠ "triangle" → names.length = 3) := by
  obtain rfl | hid := List.mem_cons.mp hid
  · have h := h ⟨3 ≤ names.length, .fewVertices names.length⟩ List.mem_cons_self
    exact ⟨of_decide_eq_true h, fun hne => (hne rfl).elim⟩
  · have hpolygon : polygonSamplers.contains id = false := by
      revert hid
      simp only [shapedSamplers, vertexSamplers, polygonSamplers, List.mem_append, List.mem_cons]
      rintro ((rfl | rfl | h) | rfl | rfl | rfl | h) <;> first | rfl | cases h
    rw [placementChecks, hpolygon, List.contains_iff_mem.mpr hid] at h
    have h := h ⟨names.length = 3, .notThreePoints names.length⟩ List.mem_cons_self
    exact ⟨(of_decide_eq_true h).ge, fun _ => of_decide_eq_true h⟩

end Checks

namespace Draft

variable {S R μ : Type} [Number R] [Uniform R] [Scalar S R μ]

/-- The instruction is carried out and adds `n` points, under new names that differ. -/
def AddsPoints (n : Nat) (i : Instruction) (d : Draft S R μ) : Prop :=
  ∃ x d', process i d = (.ok x, d') ∧ d'.points = d.points.append x.points ∧ x.points.length = n ∧
    x.pointNames.Nodup ∧ ∀ name ∈ x.pointNames, name ∉ d.points.names

/-- The instruction is refused as one that violates a contract, and nothing changes. -/
def Refuses (i : Instruction) (d : Draft S R μ) : Prop :=
  ∃ e, process i d = (.error e, d) ∧ e.kind = .contractViolation

/-- A triangle of no shape with more than three names, all of them new and different. -/
def Overfull (names : List String) (id : String) (d : Draft S R μ) : Prop :=
  id = "triangle" ∧ 3 < names.length ∧ names.Nodup ∧ ∀ name ∈ names, name ∉ d.points.names

variable {names args : List String} {id : String} {d d' : Draft S R μ}

theorem AddsPoints.unique {n : Nat} {i : Instruction} (h : d.AddsPoints n i) :
    ¬ d.Refuses i ∧ ∀ m, d.AddsPoints m i → m = n := by
  obtain ⟨x, d', hi, -, hn, -⟩ := h
  constructor
  · rintro ⟨e, he, -⟩
    cases hi.symm.trans he
  · rintro m ⟨y, e, hm, -, rfl, -⟩
    cases hi.symm.trans hm
    exact hn

/-- A sampler is refused by its checks. -/
theorem check_of_sample_error [Range.AllSound R] {e : DraftError}
    (h : process (.sample names id args) d = (.error e, d')) :
    d.points.check (.sample names id args) = .error e := by
  unfold process at h
  split at h
  · cases h
    assumption
  next a hcheck =>
    -- what passes them is placed, as all its variables are granted
    obtain ⟨-, _, p, -, -, rfl⟩ := PointTable.check_sample hcheck
    obtain ⟨x, c, hplace⟩ := p.place_granted (S := S) d.canvas
    simp [Action.run, bind, StateT.bind, hplace] at h
    cases h

theorem refuses_sample [Range.AllSound R] (hid : id ∈ triangleSamplers) {e : DraftError}
    (h : process (.sample names id args) d = (.error e, d')) :
    d.Refuses (.sample names id args) := by
  have hdecides := d.points.check_decides (.sample names id args)
  rw [check_of_sample_error h] at hdecides
  obtain ⟨k, hk, hfails, rfl⟩ := hdecides.error_mem
  exact ⟨_, process_error h ▸ h, nameChecks_kind hid hk hfails⟩

theorem new_of_sample_ok {x : Addition S R} (h : process (.sample names id args) d = (.ok x, d')) :
    names.Nodup ∧ ∀ name ∈ names, name ∉ d.points.names := by
  obtain ⟨-, -, hfresh, -⟩ := process_targets h
  obtain ⟨hnodup, hnew⟩ := PointTable.fresh_go_eq_ok.mp hfresh
  exact ⟨hnodup, fun name hname => (hnew name hname).1⟩

/-- There is a point for each name. -/
theorem addsPoints_sample {x : Addition S R} (h : process (.sample names id args) d = (.ok x, d')) :
    d.AddsPoints names.length (.sample names id args) := by
  obtain ⟨hpoints, -, -, hnames⟩ := process_targets h
  obtain rfl : x.pointNames = names := hnames
  exact ⟨x, d', h, hpoints, (List.length_map _).symm, new_of_sample_ok h⟩

/-- Which numbers of names are taken. -/
theorem length_of_sample_ok (hid : id ∈ triangleSamplers) {x : Addition S R}
    (h : process (.sample names id args) d = (.ok x, d')) :
    3 ≤ names.length ∧ (id ≠ "triangle" → names.length = 3) := by
  obtain ⟨a, -, hcheck, -⟩ := process_ok h
  have hdecides := d.points.check_decides (.sample names id args)
  rw [hcheck] at hdecides
  have hpasses : ∀ k ∈ placementChecks names id args, k.passes = true := fun k hk =>
    hdecides.passes k (List.mem_append_right _ (List.mem_append_right _ hk))
  exact length_of_placementChecks hid hpasses

/-- A triangle of no shape is a polygon. -/
theorem process_plain_triangle [Range.AllSound R] (hlength : 3 ≤ names.length)
    (hnodup : names.Nodup) (hnew : ∀ name ∈ names, name ∉ d.points.names) (args : List String) :
    ∃ x d', process (.sample names "triangle" args) d = (.ok x, d') := by
  have hp : Placement.ofSampler (.triangle {}) names = .ok (.polygon names) :=
    Placement.ofPolygon_eq_ok.mpr ⟨hlength, rfl⟩
  have hfresh : d.points.fresh names = .ok () := PointTable.fresh_go_eq_ok.mpr
    ⟨hnodup, fun name hname => ⟨hnew name hname, List.not_mem_nil⟩⟩
  obtain ⟨x, c, hrun⟩ := (Placement.polygon names).place_granted (S := S) d.canvas
  exact ⟨x, _, process_sample rfl hp hfresh hrun⟩

theorem Overfull.addsPoints [Range.AllSound R] (h : d.Overfull names id) (args : List String) :
    d.AddsPoints names.length (.sample names id args) := by
  obtain ⟨rfl, hlength, hnodup, hnew⟩ := h
  obtain ⟨x, d', h⟩ := process_plain_triangle hlength.le hnodup hnew args
  exact addsPoints_sample h

/-- A sampler for triangles adds three new points, or it is refused and nothing changes; only a
triangle of no shape with more than three names, all of them new and different, adds a point for
each of them. -/
theorem triangle_adds_three [Scalar S Float μ] (hid : id ∈ triangleSamplers)
    (names args : List String) (d : Draft S Float μ) :
    (¬ d.Overfull names id →
      d.AddsPoints 3 (.sample names id args) ∨ d.Refuses (.sample names id args)) ∧
    (d.Overfull names id → d.AddsPoints names.length (.sample names id args)) := by
  refine ⟨fun hfew => ?_, fun hmany => hmany.addsPoints args⟩
  rcases h : process (.sample names id args) d with ⟨e | x, d'⟩
  · exact .inr (refuses_sample hid h)
  · obtain ⟨hlow, hshaped⟩ := length_of_sample_ok hid h
    have hthree : names.length = 3 := by
      by_contra hne
      refine hfew ⟨?_, by omega, new_of_sample_ok h⟩
      by_contra hid
      exact hne (hshaped hid)
    exact .inl (hthree ▸ addsPoints_sample h)

theorem triangle_adds_three_right :
    let d : Draft Float Float Unit :=
      { canvas := .start () (.constant 0.25), settings := .standard }
    "rightTri" ∈ triangleSamplers ∧ ¬ d.Overfull ["A", "B", "C"] "rightTri" ∧
      (d.AddsPoints 3 (.sample ["A", "B", "C"] "rightTri" ["B"]) ∨
        d.Refuses (.sample ["A", "B", "C"] "rightTri" ["B"])) := by
  have hid : "rightTri" ∈ triangleSamplers := by decide
  have hfew : ¬ ({ canvas := .start () (.constant 0.25), settings := .standard } :
      Draft Float Float Unit).Overfull ["A", "B", "C"] "rightTri" :=
    fun h => absurd h.1 (by decide)
  exact ⟨hid, hfew, (triangle_adds_three hid _ _ _).1 hfew⟩

/-- A triangle with four vertices. -/
theorem triangle_adds_four :
    let d : Draft Float Float Unit :=
      { canvas := .start () (.constant 0.25), settings := .standard }
    let i : Instruction := .sample ["A", "B", "C", "D"] "triangle" []
    d.AddsPoints 4 i ∧ ¬ d.AddsPoints 3 i ∧ ¬ d.Refuses i := by
  intro d i
  have hmany : d.Overfull ["A", "B", "C", "D"] "triangle" :=
    ⟨rfl, by decide, by decide, fun _ _ => List.not_mem_nil⟩
  have hfour : d.AddsPoints 4 i := hmany.addsPoints []
  obtain ⟨hrefuses, hunique⟩ := hfour.unique
  exact ⟨hfour, fun hthree => absurd (hunique 3 hthree) (by decide), hrefuses⟩

end Draft

end PlaneFigure
