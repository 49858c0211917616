import PlaneFigure.Proofs.Geometry.Center
import PlaneFigure.Draft.Regularizer

/-!
The residuals on all points in exact arithmetic: the mean distance from the origin, and the mean of
how close any two points are. Both are means over the entries of a table whose order does not matter,
and any two entries count once.
-/

namespace PlaneFigure

open PlaneFigure.Geometry Exact
open scoped BigOperators

namespace Regularizer

/-! ### Any two entries -/

section Pairs

variable {α β : Type}

theorem pairs_map (f : α → β) (l : List α) :
    pairs (l.map f) = (pairs l).map (Prod.map f f) := by
  induction l with
  | nil => rfl
  | cons x l ih =>
      rw [List.map_cons, pairs, pairs, ih, List.map_append, List.map_map, List.map_map]
      rfl

/-- Which two entries make a pair does not depend on their order. -/
theorem pairs_perm {l l' : List α} (h : l.Perm l') :
    ((pairs l).map fun e => s(e.1, e.2)).Perm ((pairs l').map fun e => s(e.1, e.2)) := by
  induction h with
  | nil => exact .nil
  | cons x h ih =>
      rw [pairs, pairs, List.map_append, List.map_append]
      exact ((h.map _).map _).append ih
  | swap x y l =>
      simp only [pairs, List.map_cons, List.map_append, List.map_map, List.cons_append]
      rw [Sym2.eq_swap]
      exact .cons _ (List.perm_append_comm_assoc ..)
  | trans _ _ ih ih' => exact ih.trans ih'

theorem mem_pairs [LinearOrder α] {l : List α} (h : l.Pairwise (· < ·)) {e : α × α} :
    e ∈ pairs l ↔ e.1 ∈ l ∧ e.2 ∈ l ∧ e.1 < e.2 := by
  induction h with
  | nil => simp [pairs]
  | @cons x l hx h ih =>
      obtain ⟨a, b⟩ := e
      simp only [pairs, List.mem_append, ih, List.mem_map, Prod.mk.injEq, List.mem_cons]
      constructor
      · rintro (⟨_, hb, rfl, rfl⟩ | ⟨ha, hb, hab⟩)
        · exact ⟨.inl rfl, .inr hb, hx _ hb⟩
        · exact ⟨.inr ha, .inr hb, hab⟩
      · rintro ⟨rfl | ha, rfl | hb, hab⟩
        · exact (lt_irrefl _ hab).elim
        · exact .inl ⟨b, hb, rfl, rfl⟩
        · exact (lt_asymm hab (hx _ ha)).elim
        · exact .inr ⟨ha, hb, hab⟩

theorem nodup_pairs [LinearOrder α] {l : List α} (h : l.Pairwise (· < ·)) : (pairs l).Nodup := by
  induction h with
  | nil => exact .nil
  | @cons x l hx h ih =>
      refine (h.nodup.map (Prod.mk_right_injective x)).append ih fun e he he' => ?_
      obtain ⟨b, -, rfl⟩ := List.mem_map.mp he
      exact lt_irrefl x (hx x ((mem_pairs h).mp he').1)

/-- Any two of `n` entries, by their positions. -/
def entryPairs (n : Nat) : Finset (Fin n × Fin n) := Finset.univ.filter fun e => e.1 < e.2

theorem mem_entryPairs {n : Nat} {e : Fin n × Fin n} : e ∈ entryPairs n ↔ e.1 < e.2 := by
  simp [entryPairs]

theorem toFinset_pairs (n : Nat) : (pairs (List.finRange n)).toFinset = entryPairs n := by
  ext e
  simp [mem_entryPairs, mem_pairs (List.pairwise_lt_finRange n)]

theorem pairs_eq (l : List α) :
    pairs l = (pairs (List.finRange l.length)).map fun e => (l[e.1], l[e.2]) := by
  conv_lhs => rw [← List.map_getElem_finRange l]
  exact pairs_map ..

theorem length_pairs (l : List α) : (pairs l).length = (entryPairs l.length).card := by
  rw [pairs_eq, List.length_map, ← toFinset_pairs,
    List.toFinset_card_of_nodup (nodup_pairs (List.pairwise_lt_finRange _))]

theorem sum_pairs (f : α → α → ℝ) (l : List α) :
    ((pairs l).map fun e => f e.1 e.2).sum = ∑ e ∈ entryPairs l.length, f l[e.1] l[e.2] := by
  rw [pairs_eq, List.map_map, ← toFinset_pairs,
    List.sum_toFinset _ (nodup_pairs (List.pairwise_lt_finRange _))]
  rfl

theorem entryPairs_nonempty {n : Nat} (h : 1 < n) : (entryPairs n).Nonempty :=
  ⟨(⟨0, Nat.zero_lt_of_lt h⟩, ⟨1, h⟩), mem_entryPairs.mpr Nat.zero_lt_one⟩

end Pairs

/-! ### Means -/

/-- The mean distance from the origin. -/
noncomputable def expectedNorm (ps : List (Point ℝ)) : ℝ := 𝔼 i : Fin ps.length, ‖ps[i].toPlane‖

/-- How close two points are, from `1` for equal ones down to `0`. -/
noncomputable def closeness (p q : Point ℝ) : ℝ := (1 + dist p.toPlane q.toPlane ^ 2)⁻¹

/-- The mean closeness of any two points. -/
noncomputable def expectedCloseness (ps : List (Point ℝ)) : ℝ :=
  𝔼 e ∈ entryPairs ps.length, closeness ps[e.1] ps[e.2]

theorem expectedNorm_eq (ps : List (Point ℝ)) :
    expectedNorm ps = (ps.map fun p => ‖p.toPlane‖).sum / ps.length := by
  rw [expectedNorm, Fintype.expect_eq_sum_div_card, Fintype.card_fin,
    ← Fin.sum_univ_fun_getElem ps fun p => ‖p.toPlane‖]
  rfl

theorem expectedCloseness_eq (ps : List (Point ℝ)) :
    expectedCloseness ps =
      ((pairs ps).map fun e => closeness e.1 e.2).sum / (pairs ps).length := by
  rw [expectedCloseness, Finset.expect_eq_sum_div_card, sum_pairs, length_pairs]

theorem expectedNorm_perm {ps qs : List (Point ℝ)} (h : ps.Perm qs) :
    expectedNorm ps = expectedNorm qs := by
  rw [expectedNorm_eq, expectedNorm_eq, (h.map _).sum_eq, h.length_eq]

theorem closeness_eq (p q : Point ℝ) : closeness p q = (1 + p.quadrance q)⁻¹ := by
  rw [closeness, Point.dist_toPlane, Real.sq_sqrt (p.quadrance_nonneg q)]

theorem closeness_comm (p q : Point ℝ) : closeness p q = closeness q p := by
  rw [closeness, closeness, dist_comm]

theorem expectedCloseness_perm {ps qs : List (Point ℝ)} (h : ps.Perm qs) :
    expectedCloseness ps = expectedCloseness qs := by
  have hpairs := pairs_perm h
  have hlength := hpairs.length_eq
  have hsum := (hpairs.map (Sym2.lift ⟨closeness, closeness_comm⟩)).sum_eq
  rw [List.length_map, List.length_map] at hlength
  rw [List.map_map, List.map_map] at hsum
  rw [expectedCloseness_eq, expectedCloseness_eq, hlength]
  exact congrArg (· / _) hsum

theorem closeness_pos (p q : Point ℝ) : 0 < closeness p q := by
  unfold closeness
  positivity

theorem closeness_le_one (p q : Point ℝ) : closeness p q ≤ 1 :=
  inv_le_one_of_one_le₀ (le_add_of_nonneg_right (sq_nonneg _))

theorem closeness_eq_one {p q : Point ℝ} : closeness p q = 1 ↔ p = q := by
  rw [closeness_eq, inv_eq_one, add_eq_left, Point.quadrance_eq_zero]

theorem expectedCloseness_mem {ps : List (Point ℝ)} (h : 1 < ps.length) :
    0 < expectedCloseness ps ∧ expectedCloseness ps ≤ 1 :=
  ⟨Finset.expect_pos (fun _ _ => closeness_pos ..) (entryPairs_nonempty h),
    Finset.expect_le (entryPairs_nonempty h) fun _ _ => closeness_le_one ..⟩

theorem expectedCloseness_eq_one {ps : List (Point ℝ)} (h : 1 < ps.length) :
    expectedCloseness ps = 1 ↔ ∀ p ∈ ps, ∀ q ∈ ps, p = q := by
  constructor
  · intro hone
    -- one pair of different points would lower the mean
    have hpair : ∀ e ∈ entryPairs ps.length, ps[e.1] = ps[e.2] := by
      intro e he
      by_contra hne
      have hlt : expectedCloseness ps < 1 := Finset.expect_lt (fun _ _ => closeness_le_one ..)
        ⟨e, he, lt_of_le_of_ne (closeness_le_one ..) (mt closeness_eq_one.mp hne)⟩
      exact hlt.ne hone
    have hentry : ∀ i j : Fin ps.length, i < j → ps[i] = ps[j] := fun i j hij =>
      hpair (i, j) (mem_entryPairs.mpr hij)
    intro p hp q hq
    obtain ⟨i, hi, rfl⟩ := List.getElem_of_mem hp
    obtain ⟨j, hj, rfl⟩ := List.getElem_of_mem hq
    obtain hij | rfl | hji := lt_trichotomy i j
    · exact hentry ⟨i, hi⟩ ⟨j, hj⟩ hij
    · rfl
    · exact (hentry ⟨j, hj⟩ ⟨i, hi⟩ hji).symm
  · intro hall
    have hone : ∀ e ∈ entryPairs ps.length, closeness ps[e.1] ps[e.2] = 1 := fun e _ =>
      closeness_eq_one.mpr (hall _ (List.getElem_mem _) _ (List.getElem_mem _))
    rw [expectedCloseness, Finset.expect_congr rfl hone, Finset.expect_const (entryPairs_nonempty h)]

/-! ### What is computed -/

theorem calculate_mean {R : Type} [Number R] (xs : List R) :
    calculate (mean xs) = calculate (Scalar.sum xs) / Number.ofNat xs.length :=
  rfl

theorem calculate_mean_exact {α : Type} (f : α → ℝ) {l : List α} (h : l.length ≠ 0) :
    calculate (mean (l.map fun a => real (f a))) = real ((l.map f).sum / l.length) := by
  have hmap : l.map (fun a => real (f a)) = (l.map f).map real := List.map_map.symm
  rw [calculate_mean, List.length_map, hmap, calculate_sum_exact]
  exact real_div (Nat.cast_ne_zero.mpr h)

theorem calculate_meanNorm_exact {ps : List (Point ℝ)} (h : 0 < ps.length) :
    calculate (meanNorm (ps.map Point.exact)) = real (expectedNorm ps) := by
  have hnorms : ∀ p : Point ℝ, calculate (dist p.exact (calculate (Point.const 0.0 0.0))) =
      real ‖p.toPlane‖ := by
    intro p
    have horigin : calculate (Point.const 0.0 0.0) = Point.exact ⟨0, 0⟩ :=
      congrArg₂ Point.mk literal_zero literal_zero
    rw [horigin, calculate_dist_exact, Point.norm_toPlane]
  rw [meanNorm, calculate_bind, calculate_bind, calculate_mapM, List.map_map, expectedNorm_eq,
    ← calculate_mean_exact _ h.ne']
  exact congrArg (fun l => calculate (mean l)) (List.map_congr_left fun p _ => hnorms p)

theorem calculate_closeness (p q : Point ℝ) :
    (1.0 : Exact) / (calculate (sqDist p.exact q.exact) + 1.0) = real (closeness p q) := by
  have hpos : p.quadrance q + 1 ≠ 0 := (add_pos_of_nonneg_of_pos (p.quadrance_nonneg q) one_pos).ne'
  rw [calculate_sqDist_exact, literal_one, real_add, real_div hpos, one_div, closeness_eq, add_comm]

theorem calculate_meanCloseness_exact {ps : List (Point ℝ)} (h : 1 < ps.length) :
    calculate (meanCloseness (ps.map Point.exact)) = real (expectedCloseness ps) := by
  have hlength : (pairs ps).length ≠ 0 := by
    rw [length_pairs]
    exact (entryPairs_nonempty h).card_pos.ne'
  rw [meanCloseness, calculate_bind, calculate_bind, calculate_mapM, pairs_map, List.map_map,
    expectedCloseness_eq, ← calculate_mean_exact (fun e => closeness e.1 e.2) hlength]
  exact congrArg (fun l => calculate (mean l))
    (List.map_congr_left fun e _ => calculate_closeness e.1 e.2)

end Regularizer

end PlaneFigure
