import Mathlib
import PlaneFigure.Number

/-!
The order of doubles. Comparisons with what is not a number are false, so neither of `a ≤ b` and
`b < a` need hold; but they never hold together. By its bits, what is not a number comes after
infinity.
-/

namespace PlaneFigure.Double

open Float.Model

theorem compare_swap (a b : UnpackedFloat) :
    b.compare a = (a.compare b).map Ordering.swap := by
  rcases a with s | _ | s | ⟨s, m, e, _⟩ <;> rcases b with t | _ | t | ⟨t, n, d, _⟩ <;>
    (try cases s) <;> (try cases t)
  case finite.finite.negative.negative =>
    simp only [UnpackedFloat.compare, Option.map_some, Ordering.swap_then,
      Int.compare_swap, Nat.compare_swap]
  case finite.finite.positive.positive =>
    simp only [UnpackedFloat.compare, Option.map_some, Ordering.swap_then,
      Int.compare_swap, Nat.compare_swap]
  all_goals rfl

theorem not_lt_of_le {a b : Float} (h : a ≤ b) : ¬ b < a := by
  intro hlt
  have hle : (a.toModel.unpack.compare b.toModel.unpack).any (·.isLE) = true :=
    of_decide_eq_true h
  have hgt : (b.toModel.unpack.compare a.toModel.unpack == some .lt) = true :=
    of_decide_eq_true hlt
  rw [compare_swap a.toModel.unpack] at hgt
  cases hc : a.toModel.unpack.compare b.toModel.unpack with
  | none => simp [hc] at hle
  | some o => cases o <;> simp [hc] at hle hgt

theorem toBits_nan : Float.nan.toBits = 0x7ff8000000000000 := by decide +kernel

/-- Sign apart, infinities have the greatest bits of all that is a number. -/
theorem toBits_mod_le {x : Float} (h : x.isNaN = false) :
    x.toBits.toNat % 2 ^ 63 ≤ 0x7ff0000000000000 := by
  let b := x.toBits.toBitVec
  have hfields : (@UnpackedFloat.unpackExponent Format.binary64 b).toNat = 2047 →
      (@UnpackedFloat.unpackMantissa Format.binary64 b).toNat = 0 := by
    intro hexponent
    by_contra hmantissa
    change (UnpackedFloat.unpack Format.binary64 b).isNaN = false at h
    unfold UnpackedFloat.unpack at h
    rw [if_pos (BitVec.eq_of_toNat_eq hexponent),
      if_neg fun hzero => hmantissa (congrArg BitVec.toNat hzero)] at h
    cases h
  simp only [UnpackedFloat.unpackExponent, UnpackedFloat.unpackMantissa, BitVec.toNat_cast,
    BitVec.extractLsb_toNat, Nat.shiftRight_eq_div_pow] at hfields
  change x.toBits.toNat / 2 ^ 52 % 2 ^ 11 = 2047 → x.toBits.toNat / 2 ^ 0 % 2 ^ 52 = 0 at hfields
  omega

end PlaneFigure.Double
