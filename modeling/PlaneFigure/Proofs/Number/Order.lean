import Mathlib
import PlaneFigure.Proofs.Number.Canonical
import PlaneFigure.Proofs.Number.Double

/-!
Doubles in order. Those that are numbers are compared by their ranks, which are ordered linearly;
nothing compares with what is not a number, and the maximum ignores it.
-/

namespace PlaneFigure.Double

open Float.Model

/-- Negative numbers, zeros and positive numbers in this order, and within a sign by exponent and
mantissa. -/
def rank : UnpackedFloat → ℤ ×ₗ ℤ ×ₗ ℤ
  | .infinity .negative => toLex (-2, toLex (0, 0))
  | .finite .negative m e _ => toLex (-1, toLex (-e, -m))
  | .notANumber => toLex (0, toLex (0, 0))
  | .zero _ => toLex (0, toLex (0, 0))
  | .finite .positive m e _ => toLex (1, toLex (e, m))
  | .infinity .positive => toLex (2, toLex (0, 0))

theorem compare_isSome {u v : UnpackedFloat} :
    (u.compare v).isSome = true ↔ u ≠ .notANumber ∧ v ≠ .notANumber := by
  rcases u with s | _ | s | ⟨s, m, e, _⟩ <;> rcases v with t | _ | t | ⟨t, n, d, _⟩ <;>
    (try cases s) <;> (try cases t) <;> simp [UnpackedFloat.compare]

theorem compare_eq_lt {u v : UnpackedFloat} (hu : u ≠ .notANumber) (hv : v ≠ .notANumber) :
    u.compare v = some .lt ↔ rank u < rank v := by
  rcases u with s | _ | s | ⟨s, m, e, _⟩ <;> rcases v with t | _ | t | ⟨t, n, d, _⟩ <;>
    (try cases s) <;> (try cases t) <;>
    simp_all [UnpackedFloat.compare, rank, Prod.Lex.toLex_lt_toLex, Ordering.then_eq_lt,
      Ordering.then_eq_gt, compare_lt_iff_lt, compare_gt_iff_gt]
  rfl

/-- The place of a double in the order. -/
def key (x : Float) : ℤ ×ₗ ℤ ×ₗ ℤ := rank x.toModel.unpack

variable {x y z : Float}

theorem isNaN_eq_false : x.isNaN = false ↔ x.toModel.unpack ≠ .notANumber := by
  rw [← Bool.not_eq_true]
  exact not_congr UnpackedFloat.isNaN_iff

theorem isNaN_of_isFinite (h : x.isFinite = true) : x.isNaN = false := by
  rw [isNaN_eq_false]
  intro hnan
  change UnpackedFloat.isFinite x.toModel.unpack = true at h
  simp [hnan, UnpackedFloat.isFinite] at h

theorem lt_iff : x < y ↔ x.isNaN = false ∧ y.isNaN = false ∧ key x < key y := by
  have hlt : x < y ↔ x.toModel.unpack.compare y.toModel.unpack = some .lt := by
    rw [← beq_iff_eq]
    exact decide_eq_true_iff
  rw [hlt, isNaN_eq_false, isNaN_eq_false]
  constructor
  · intro h
    obtain ⟨hx, hy⟩ := compare_isSome.mp (Option.isSome_of_eq_some h)
    exact ⟨hx, hy, (compare_eq_lt hx hy).mp h⟩
  · rintro ⟨hx, hy, h⟩
    exact (compare_eq_lt hx hy).mpr h

/-- Of two numbers, one is less or the other is no greater. -/
theorem not_lt (hx : x.isNaN = false) (hy : y.isNaN = false) : ¬ x < y ↔ y ≤ x := by
  refine ⟨fun h => ?_, not_lt_of_le⟩
  have hsome := compare_isSome.mpr ⟨isNaN_eq_false.mp hx, isNaN_eq_false.mp hy⟩
  have hlt : x.toModel.unpack.compare y.toModel.unpack ≠ some .lt := fun hc =>
    h (decide_eq_true (beq_iff_eq.mpr hc))
  apply decide_eq_true
  change Option.any (·.isLE) (y.toModel.unpack.compare x.toModel.unpack) = true
  rw [compare_swap x.toModel.unpack]
  cases hc : x.toModel.unpack.compare y.toModel.unpack with
  | none => simp [hc] at hsome
  | some o => cases o <;> simp_all

theorem le_iff : x ≤ y ↔ x.isNaN = false ∧ y.isNaN = false ∧ key x ≤ key y := by
  have hnumbers : x ≤ y → x.isNaN = false ∧ y.isNaN = false := by
    intro h
    rw [isNaN_eq_false, isNaN_eq_false, ← compare_isSome]
    have hle : Option.any (·.isLE) (x.toModel.unpack.compare y.toModel.unpack) = true :=
      of_decide_eq_true h
    cases hc : x.toModel.unpack.compare y.toModel.unpack with
    | none => simp [hc] at hle
    | some o => rfl
  constructor
  · intro h
    obtain ⟨hx, hy⟩ := hnumbers h
    refine ⟨hx, hy, le_of_not_gt fun hlt => ?_⟩
    exact not_lt_of_le h (lt_iff.mpr ⟨hy, hx, hlt⟩)
  · rintro ⟨hx, hy, h⟩
    exact (not_lt hy hx).mp fun hlt => not_lt_of_ge h (lt_iff.mp hlt).2.2

theorem lt_trans (hxy : x < y) (hyz : y < z) : x < z := by
  rw [lt_iff] at hxy hyz ⊢
  exact ⟨hxy.1, hyz.2.1, hxy.2.2.trans hyz.2.2⟩

theorem le_trans (hxy : x ≤ y) (hyz : y ≤ z) : x ≤ z := by
  rw [le_iff] at hxy hyz ⊢
  exact ⟨hxy.1, hyz.2.1, hxy.2.2.trans hyz.2.2⟩

theorem le_of_lt (h : x < y) : x ≤ y := by
  rw [lt_iff] at h
  rw [le_iff]
  exact ⟨h.1, h.2.1, h.2.2.le⟩

theorem le_refl (hx : x.isNaN = false) : x ≤ x := by
  rw [le_iff]
  exact ⟨hx, hx, le_rfl⟩

theorem neg_compare_neg (u v : UnpackedFloat) : u.neg.compare v.neg = v.compare u := by
  rw [compare_swap u]
  rcases u with s | _ | s | ⟨s, m, e, _⟩ <;> rcases v with t | _ | t | ⟨t, n, d, _⟩ <;>
    (try cases s) <;> (try cases t)
  case finite.finite.negative.negative =>
    simp only [UnpackedFloat.compare, UnpackedFloat.neg, Option.map_some, Ordering.swap_then,
      Int.compare_swap, Nat.compare_swap]
  case finite.finite.positive.positive =>
    simp only [UnpackedFloat.compare, UnpackedFloat.neg, Option.map_some, Ordering.swap_then,
      Int.compare_swap, Nat.compare_swap]
  all_goals rfl

theorem neg_le_neg (h : x ≤ y) : -y ≤ -x := by
  apply decide_eq_true
  change Option.any (·.isLE) ((-y).toModel.unpack.compare (-x).toModel.unpack) = true
  rw [unpack_neg, unpack_neg, neg_compare_neg]
  exact of_decide_eq_true h

/-! ### The maximum -/

variable {a b : Float}

theorem eq_of_isNaN (ha : a.isNaN = true) (hb : b.isNaN = true) : a = b := by
  have hnan : a = Float.nan ∧ b = Float.nan := by simp_all
  rw [hnan.1, hnan.2]

theorem larger_of_isNaN_left (ha : a.isNaN = true) : largerDouble a b = b :=
  if_pos ha

theorem larger_of_isNaN_right (hb : b.isNaN = true) : largerDouble a b = a := by
  by_cases ha : a.isNaN = true
  · rw [larger_of_isNaN_left ha, eq_of_isNaN ha hb]
  · rw [largerDouble, if_neg ha, if_pos hb]

theorem larger_of_numbers (ha : a.isNaN = false) (hb : b.isNaN = false) :
    largerDouble a b = if a < b then b else a := by
  rw [largerDouble, if_neg (ne_true_of_eq_false ha), if_neg (ne_true_of_eq_false hb)]

/-- The maximum is bounded from below by an operand that is a number, whatever the other one is. -/
theorem le_larger_right (hb : b.isNaN = false) : b ≤ largerDouble a b := by
  cases ha : a.isNaN with
  | true =>
      rw [larger_of_isNaN_left ha]
      exact le_refl hb
  | false =>
      rw [larger_of_numbers ha hb]
      split_ifs with hlt
      · exact le_refl hb
      · exact (not_lt ha hb).mp hlt

theorem larger_le (ha : a ≤ x) (hb : b ≤ x) : largerDouble a b ≤ x := by
  rw [larger_of_numbers (le_iff.mp ha).1 (le_iff.mp hb).1]
  split_ifs
  · exact hb
  · exact ha

theorem larger_of_le (h : b ≤ a) : largerDouble a b = a := by
  rw [larger_of_numbers (le_iff.mp h).2.1 (le_iff.mp h).1, if_neg (not_lt_of_le h)]

/-- Comparison and maximum select the same operand, unless only the right one is not a number. -/
theorem selected_eq_larger_iff :
    (if b ≤ a then a else b) = largerDouble a b ↔ (b.isNaN = true → a.isNaN = true) := by
  cases ha : a.isNaN with
  | true =>
      have hle : ¬ b ≤ a := fun hle => ne_true_of_eq_false (le_iff.mp hle).2.1 ha
      rw [if_neg hle, larger_of_isNaN_left ha]
      simp
  | false =>
      cases hb : b.isNaN with
      | true =>
          have hle : ¬ b ≤ a := fun hle => ne_true_of_eq_false (le_iff.mp hle).1 hb
          rw [if_neg hle, larger_of_isNaN_right hb]
          refine iff_of_false ?_ (by simp)
          rintro rfl
          exact ne_true_of_eq_false ha hb
      | false =>
          rw [larger_of_numbers ha hb]
          by_cases hlt : a < b
          · have hle : ¬ b ≤ a := fun hle => not_lt_of_le hle hlt
            simp [hlt, hle]
          · simp [hlt, (not_lt ha hb).mp hlt]

end PlaneFigure.Double
