import PlaneFigure.Proofs.Draft.Lookup
import PlaneFigure.Proofs.Geometry.Relation

/-!
What constraints say about points of the plane, predicate by predicate, and that their residuals
vanish where they hold.
-/

namespace PlaneFigure

open Exact

/-- What a predicate says about points; nothing holds if there is no such predicate, or if it is not
one of so many points. -/
def Meaning : String → List (Point ℝ) → Prop
  | "perp", [a, b, c, d] => (Relation.perp a b c d).Holds
  | "para", [a, b, c, d] => (Relation.para a b c d).Holds
  | "cong", [a, b, c, d] => (Relation.cong a b c d).Holds
  | "midp", [m, a, b] => (Relation.midp m a b).Holds
  | "coll", [a, b, c] => (Relation.coll a b c).Holds
  | "between", [p, a, b] => (Relation.between p a b).Holds
  | "onCirc", [p, o, a] => (Relation.onCircle p o a).Holds
  | "concyc", [a, b, c, d] => (Relation.concyclic a b c d).Holds
  | _, _ => False

theorem meaning_iff {pred : String} {kind : RelationKind} {points : List (Point ℝ)}
    {r : Relation ℝ} (hkind : RelationKind.ofId pred = .ok kind)
    (hr : kind.relation? points = some r) : Meaning pred points ↔ r.Holds := by
  obtain rfl := RelationKind.ofId_eq_ok.mp hkind
  unfold RelationKind.relation? at hr
  split at hr <;> cases hr <;> exact Iff.rfl

theorem RelationKind.relation?_points {S : Type} {kind : RelationKind} {points : List (Point S)}
    {r : Relation S} (hr : kind.relation? points = some r) : r.points = points := by
  unfold relation? at hr
  split at hr <;> cases hr <;> rfl

/-- The constraint holds of the points that a table has for its names. -/
def Constraint.HoldsIn (t : PointTable Exact) (c : Constraint) : Prop :=
  ∃ points : List (Point ℝ),
    List.Forall₂ (fun name p => t.get? name = some p.exact) c.points points ∧
      Meaning c.pred points

variable {t : PointTable Exact} {c : Constraint} {label : String} {r : Relation Exact}

/-- What has a meaning is a relation of as many points as there are. -/
theorem Meaning.relation {pred : String} {points : List (Point ℝ)} (h : Meaning pred points) :
    ∃ kind r, RelationKind.ofId pred = .ok kind ∧ points.length = kind.arity ∧
      kind.relation? points = some r := by
  unfold Meaning at h
  split at h
  all_goals first | exact ⟨_, _, rfl, rfl, rfl⟩ | exact h.elim

/-- A constraint that holds passes its checks, unless it is negated. -/
theorem Constraint.HoldsIn.relate (h : c.HoldsIn t) (hc : c.negate = false) :
    ∃ label r, t.constraint c = .ok (.relate label r) := by
  obtain ⟨points, hpoints, hmeaning⟩ := h
  obtain ⟨kind, s, hkind, harity, hs⟩ := hmeaning.relation
  have hr : kind.relation? (points.map Point.exact) = some (s.map real) :=
    (kind.relation?_map real points).trans (congrArg (Option.map _) hs)
  exact ⟨_, _, PointTable.constraint_eq_ok.mpr ⟨hc, kind, points.map Point.exact, s.map real, hkind,
    hpoints.length_eq.trans harity, List.forall₂_map_right_iff.mpr hpoints, hr, rfl⟩⟩

theorem Constraint.HoldsIn.of_prefix {t' : PointTable Exact} (h : c.HoldsIn t)
    (hearlier : t.entries <+: t'.entries) : c.HoldsIn t' := by
  obtain ⟨points, hpoints, hmeaning⟩ := h
  exact ⟨points, hpoints.imp fun _ _ => PointTable.get?_of_prefix hearlier, hmeaning⟩

/-- Where a constraint holds, its residuals are zero. -/
theorem Constraint.HoldsIn.values_eq_zero (h : c.HoldsIn t)
    (hc : t.constraint c = .ok (.relate label r)) : ∀ x ∈ r.values, x = real 0 := by
  obtain ⟨points, hpoints, hmeaning⟩ := h
  obtain ⟨-, kind, exacts, r', hkind, -, hexacts, hr, heq⟩ := PointTable.constraint_eq_ok.mp hc
  cases heq
  have hmap : exacts = points.map Point.exact :=
    PointTable.get?_rightUnique.forall₂ hexacts (List.forall₂_map_right_iff.mpr hpoints)
  obtain ⟨s, hs, rfl⟩ : ∃ s, kind.relation? points = some s ∧ s.map real = r := by
    rw [hmap] at hr
    simpa using (kind.relation?_map real points).symm.trans hr
  have hholds := (meaning_iff hkind hs).mp hmeaning
  exact (Relation.values_eq_zero_iff hholds.defined).mpr hholds

/-- Where the residuals of a constraint are defined, its points have real coordinates. -/
theorem Constraint.isReal_points (hc : t.constraint c = .ok (.relate label r))
    (h : ∀ x ∈ r.values, x.IsReal) : ∀ name ∈ c.points, ∃ p, t.get? name = some p ∧ p.IsReal := by
  obtain ⟨-, kind, exacts, r', -, -, hexacts, hr, heq⟩ := PointTable.constraint_eq_ok.mp hc
  cases heq
  have hpoints := Relation.isReal_points h
  rw [RelationKind.relation?_points hr] at hpoints
  intro name hname
  obtain ⟨n, hn, rfl⟩ := List.getElem_of_mem hname
  have hn' : n < exacts.length := hexacts.length_eq ▸ hn
  exact ⟨exacts[n], hexacts.get hn hn', hpoints _ (List.getElem_mem hn')⟩

/-- Where the residuals of a constraint are zero, it holds. -/
theorem Constraint.holdsIn_of_values (hc : t.constraint c = .ok (.relate label r))
    (h : ∀ x ∈ r.values, x = real 0) : c.HoldsIn t := by
  obtain ⟨-, kind, exacts, r', hkind, -, hexacts, hr, heq⟩ := PointTable.constraint_eq_ok.mp hc
  cases heq
  -- the residuals are defined, and so the points that they are computed from have real coordinates
  have hreal : ∀ x ∈ r.values, x.IsReal := fun x hx => ⟨0, h x hx⟩
  have hpoints := Relation.isReal_points hreal
  obtain ⟨hmap, hdefined⟩ := Relation.map_toReal hreal
  rw [RelationKind.relation?_points hr] at hpoints
  rw [← hmap] at h
  refine ⟨exacts.map (Point.map toReal), ?_, ?_⟩
  · have hback : (exacts.map (Point.map toReal)).map Point.exact = exacts := by
      rw [List.map_map]
      exact (List.map_congr_left fun p hp => Point.map_toReal (hpoints p hp)).trans (List.map_id _)
    have hexacts' : List.Forall₂ (fun name p => t.get? name = some p) c.points
        ((exacts.map (Point.map toReal)).map Point.exact) := by
      rwa [hback]
    rwa [List.forall₂_map_right_iff] at hexacts'
  · have hs : kind.relation? (exacts.map (Point.map toReal)) = some (r.map toReal) := by
      rw [RelationKind.relation?_map, hr]
      rfl
    exact (meaning_iff hkind hs).mpr ((Relation.values_eq_zero_iff hdefined).mp h)

end PlaneFigure
