import Mathlib.Data.List.Forall2
import PlaneFigure.Draft.Check

/-!
What computations and constraints find in the table of points when they pass their checks. A name
that is found in a table is found in every longer one, with the same point.
-/

namespace PlaneFigure

section Except

variable {ε α β : Type}

theorem bind_eq_ok {x : Except ε α} {f : α → Except ε β} {b : β} :
    (x >>= f) = .ok b ↔ ∃ a, x = .ok a ∧ f a = .ok b := by
  cases x with
  | error e => exact ⟨nofun, nofun⟩
  | ok a => exact ⟨fun h => ⟨a, rfl, h⟩, fun ⟨_, ha, h⟩ => by cases ha; exact h⟩

theorem pure_eq_ok {a b : α} : (pure a : Except ε α) = .ok b ↔ a = b :=
  Except.ok.injEq a b ▸ Iff.rfl

theorem mapM_eq_ok {f : α → Except ε β} {l : List α} {l' : List β} :
    l.mapM f = .ok l' ↔ List.Forall₂ (fun a b => f a = .ok b) l l' := by
  induction l generalizing l' with
  | nil => rw [List.mapM_nil, List.forall₂_nil_left_iff, pure_eq_ok, eq_comm]
  | cons a l ih =>
      simp only [List.mapM_cons, List.forall₂_cons_left_iff, bind_eq_ok, pure_eq_ok, ih]
      constructor
      · rintro ⟨b, hb, l₁, hl, rfl⟩
        exact ⟨b, l₁, hb, hl, rfl⟩
      · rintro ⟨b, l₁, hb, hl, rfl⟩
        exact ⟨b, hb, l₁, hl, rfl⟩

end Except

namespace RelationKind

/-- The identifier of a relation. -/
def id : RelationKind → String
  | perp => "perp"
  | para => "para"
  | cong => "cong"
  | midp => "midp"
  | coll => "coll"
  | between => "between"
  | onCircle => "onCirc"
  | concyclic => "concyc"

theorem ofId_eq_ok {id : String} {kind : RelationKind} : ofId id = .ok kind ↔ id = kind.id := by
  constructor
  · intro h
    unfold ofId at h
    split at h <;> cases h <;> rfl
  · rintro rfl
    cases kind <;> rfl

end RelationKind

namespace PointTable

variable {S : Type} {t t' : PointTable S} {name : String} {p : Point S}

theorem get_eq_ok : t.get name = .ok p ↔ t.get? name = some p := by
  unfold get
  cases t.get? name with
  | none => exact ⟨nofun, nofun⟩
  | some q => exact ⟨fun h => by cases h; rfl, fun h => by cases h; rfl⟩

/-- Points are found name by name. -/
theorem mapM_get_eq_ok {names : List String} {points : List (Point S)} :
    names.mapM t.get = .ok points ↔
      List.Forall₂ (fun name p => t.get? name = some p) names points := by
  have hget : (fun name p => t.get name = .ok p) = fun name p => t.get? name = some p :=
    funext fun _ => funext fun _ => propext get_eq_ok
  rw [mapM_eq_ok, hget]

theorem get?_eq_none : t.get? name = none ↔ t.contains name = false := by
  unfold get? contains names
  rw [List.lookup_eq_none_iff, List.contains_eq_mem, decide_eq_false_iff_not, List.mem_map]
  constructor
  · rintro h ⟨e, he, rfl⟩
    exact (bne_iff_ne.mp (h e he)) rfl
  · intro h e he
    exact bne_iff_ne.mpr fun heq => h ⟨e, he, heq.symm⟩

/-- The points of names are determined. -/
theorem get?_rightUnique : Relator.RightUnique fun (name : String) (p : Point S) =>
    t.get? name = some p :=
  fun _ _ _ hp hq => Option.some.inj (hp.symm.trans hq)

/-- Names that are found stay found. -/
theorem get?_of_prefix (h : t.entries <+: t'.entries) (hp : t.get? name = some p) :
    t'.get? name = some p := by
  obtain ⟨more, hmore⟩ := h
  rw [get?, ← hmore, List.lookup_append, ← get?, hp]
  rfl

/-- A point that is added under a new name is found. -/
theorem get?_append_new (h : t.contains name = false) :
    (t.append [(name, p)]).get? name = some p := by
  rw [get?, append, List.lookup_append, ← get?, get?_eq_none.mpr h]
  simp

/-- A constraint that passes its checks, and its relation. -/
theorem constraint_eq_ok {c : Constraint} {a : Action S} :
    t.constraint c = .ok a ↔ c.negate = false ∧
      ∃ kind points r, RelationKind.ofId c.pred = .ok kind ∧ c.points.length = kind.arity ∧
        List.Forall₂ (fun name p => t.get? name = some p) c.points points ∧
        kind.relation? points = some r ∧
        a = .relate (c.pred ++ "_" ++ "_".intercalate c.points) r := by
  unfold constraint
  cases c.negate with
  | true => exact ⟨nofun, nofun⟩
  | false =>
      rw [if_neg Bool.false_ne_true, bind_eq_ok]
      constructor
      · rintro ⟨kind, hkind, h⟩
        split_ifs at h with harity
        obtain ⟨points, hpoints, h⟩ := bind_eq_ok.mp h
        split at h <;> cases h
        exact ⟨rfl, kind, points, _, hkind, not_not.mp harity, mapM_get_eq_ok.mp hpoints, ‹_›, rfl⟩
      · rintro ⟨-, kind, points, r, hkind, harity, hpoints, hr, rfl⟩
        refine ⟨kind, hkind, ?_⟩
        rw [if_neg (not_not.mpr harity), bind_eq_ok]
        exact ⟨points, mapM_get_eq_ok.mpr hpoints, by rw [hr]; rfl⟩

theorem constraint_of_prefix (h : t.entries <+: t'.entries) {c : Constraint} {a : Action S}
    (hc : t.constraint c = .ok a) : t'.constraint c = .ok a := by
  rw [constraint_eq_ok] at hc ⊢
  obtain ⟨hnegate, kind, points, r, hkind, harity, hpoints, hr, ha⟩ := hc
  exact ⟨hnegate, kind, points, r, hkind, harity, hpoints.imp fun _ _ => get?_of_prefix h, hr, ha⟩

theorem fresh_singleton : t.fresh [name] = .ok () ↔ t.contains name = false := by
  cases h : t.contains name <;> simp [fresh, fresh.go, h, pure, Except.pure]

/-- A line that passes its checks. -/
theorem line_eq_ok {spec : LineSpec} {l : Geometry.Line S} :
    t.line spec = .ok l ↔ ∃ kind points, Geometry.LineKind.ofId? spec.pred = some kind ∧
      spec.points.length = kind.arity ∧
      List.Forall₂ (fun name p => t.get? name = some p) spec.points points ∧
      kind.line? points = some l := by
  unfold line
  constructor
  · intro h
    split at h
    · cases h
    split_ifs at h with harity
    obtain ⟨points, hpoints, h⟩ := bind_eq_ok.mp h
    split at h <;> cases h
    exact ⟨_, points, ‹_›, not_not.mp harity, mapM_get_eq_ok.mp hpoints, ‹_›⟩
  · rintro ⟨kind, points, hkind, harity, hpoints, hl⟩
    simp only [hkind]
    rw [if_neg (not_not.mpr harity), bind_eq_ok]
    exact ⟨points, mapM_get_eq_ok.mpr hpoints, by rw [hl]; rfl⟩

theorem line_of_prefix (h : t.entries <+: t'.entries) {spec : LineSpec} {l : Geometry.Line S}
    (hl : t.line spec = .ok l) : t'.line spec = .ok l := by
  rw [line_eq_ok] at hl ⊢
  obtain ⟨kind, points, hkind, harity, hpoints, hl⟩ := hl
  exact ⟨kind, points, hkind, harity, hpoints.imp fun _ _ => get?_of_prefix h, hl⟩

/-- The intersection of two lines that passes its checks. -/
theorem check_intersection {l m : LineSpec} {a : Action S}
    (h : t.check (.compute name ⟨"interLL", [.line l, .line m]⟩) = .ok a) :
    t.contains name = false ∧ ∃ l' m', t.line l = .ok l' ∧ t.line m = .ok m' ∧
      a = .intersect name (l, l') (m, m') := by
  obtain ⟨kind, hkind, h⟩ := bind_eq_ok.mp h
  cases hkind
  obtain ⟨_, hfresh, h⟩ := bind_eq_ok.mp h
  obtain ⟨l', hl, h⟩ := bind_eq_ok.mp h
  obtain ⟨m', hm, h⟩ := bind_eq_ok.mp h
  cases h
  exact ⟨fresh_singleton.mp hfresh, l', m', hl, hm, rfl⟩

/-- Any other construction that passes its checks, from points. -/
theorem check_construction {method : String} {kind : ConstructionKind} {operands : List String}
    {a : Action S} (hkind : ConstructionKind.ofId method = .ok kind) (hne : kind ≠ .intersection)
    (h : t.check (.compute name ⟨method, operands.map .point⟩) = .ok a) :
    t.contains name = false ∧ ∃ points k,
      List.Forall₂ (fun name p => t.get? name = some p) operands points ∧
      kind.construction? points = some k ∧ a = .construct name k := by
  obtain ⟨kind', hkind', h⟩ := bind_eq_ok.mp h
  cases hkind.symm.trans hkind'
  obtain ⟨_, hfresh, h⟩ := bind_eq_ok.mp h
  rw [if_neg hne] at h
  obtain ⟨points, hpoints, h⟩ := bind_eq_ok.mp h
  split at h <;> cases h
  rw [List.mapM_map] at hpoints
  exact ⟨fresh_singleton.mp hfresh, points, _, mapM_get_eq_ok.mp hpoints, ‹_›, rfl⟩

/-- What instructions lead to that pass their checks. -/
theorem check_cases {i : Instruction} {a : Action S} (h : t.check i = .ok a) :
    (∃ p, a = .place p) ∨ (∃ name k, a = .construct name k) ∨
      (∃ name l m l' m', i = .compute name ⟨"interLL", [.line l, .line m]⟩ ∧
        t.line l = .ok l' ∧ t.line m = .ok m' ∧ a = .intersect name (l, l') (m, m')) ∨
      ∃ c label r, i = .assert c ∧ t.constraint c = .ok a ∧ a = .relate label r := by
  cases i with
  | sample points sampler args =>
      obtain ⟨_, -, h⟩ := bind_eq_ok.mp h
      obtain ⟨_, -, h⟩ := bind_eq_ok.mp h
      obtain ⟨p, -, h⟩ := bind_eq_ok.mp h
      cases h
      exact .inl ⟨p, rfl⟩
  | parameterize point id =>
      obtain ⟨_, -, h⟩ := bind_eq_ok.mp h
      obtain ⟨_, -, h⟩ := bind_eq_ok.mp h
      cases h
      exact .inl ⟨_, rfl⟩
  | compute point c =>
      obtain ⟨method, operands⟩ := c
      obtain ⟨kind, hkind, hrest⟩ := bind_eq_ok.mp h
      obtain ⟨_, -, hbody⟩ := bind_eq_ok.mp hrest
      clear h hrest
      split_ifs at hbody with hkind'
      · -- no other identifier is that of an intersection
        obtain rfl : method = "interLL" := by
          rw [hkind'] at hkind
          unfold ConstructionKind.ofId at hkind
          split at hkind <;> cases hkind
          assumption
        unfold intersection at hbody
        split at hbody
        next l m hoperands =>
          obtain rfl : operands = _ := hoperands
          obtain ⟨l', hl, hbody⟩ := bind_eq_ok.mp hbody
          obtain ⟨m', hm, hbody⟩ := bind_eq_ok.mp hbody
          cases hbody
          exact .inr (.inr (.inl ⟨point, l, m, l', m', rfl, hl, hm, rfl⟩))
        next => cases hbody
      · obtain ⟨_, -, hbody⟩ := bind_eq_ok.mp hbody
        split at hbody <;> cases hbody
        exact .inr (.inl ⟨point, _, rfl⟩)
  | assert c =>
      obtain ⟨-, kind, points, r, -, -, -, -, ha⟩ := constraint_eq_ok.mp h
      exact .inr (.inr (.inr ⟨c, _, r, rfl, h, ha⟩))

/-- Only intersections of two lines lead to intersections. -/
theorem check_eq_intersect {i : Instruction} {l m : LineSpec × Geometry.Line S}
    (h : t.check i = .ok (.intersect name l m)) :
    i = .compute name ⟨"interLL", [.line l.1, .line m.1]⟩ ∧ t.line l.1 = .ok l.2 ∧
      t.line m.1 = .ok m.2 := by
  obtain ⟨p, ha⟩ | ⟨_, k, ha⟩ | ⟨_, _, _, _, _, hi, hl, hm, ha⟩ | ⟨_, _, r, -, -, ha⟩ :=
    check_cases h <;> cases ha
  exact ⟨hi, hl, hm⟩

/-- Only constraints lead to relations. -/
theorem check_eq_relate {i : Instruction} {label : String} {r : Relation S}
    (h : t.check i = .ok (.relate label r)) :
    ∃ c, i = .assert c ∧ t.constraint c = .ok (.relate label r) := by
  obtain ⟨p, ha⟩ | ⟨_, k, ha⟩ | ⟨_, _, _, _, _, -, -, -, ha⟩ | ⟨c, _, r, hi, hc, ha⟩ :=
    check_cases h <;> cases ha
  exact ⟨c, hi, hc⟩

end PointTable

end PlaneFigure
