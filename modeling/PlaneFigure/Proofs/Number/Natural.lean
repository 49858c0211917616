import Mathlib
import PlaneFigure.Proofs.Number.Nearest
import PlaneFigure.Decimal.Reading

/-!
Natural numbers as doubles. A number is rounded to a double unless it comes within half a step of the
power of two after the greatest, and the conversion of a numeral without a point rounds nothing else.
-/

namespace PlaneFigure

open Float.Model Float.Model.UnpackedFloat Double

namespace Double

/-- Zeros at the end of a mantissa, with as much off the exponent, do not make the number greater. -/
theorem isFinite_lengthened {m k : Nat} {e : ℤ} {s : Sign} (hm : 0 < m) (hk : 52 ≤ k)
    (h : m * 2 ^ e < tooGreat) :
    (Float.ofModel (.pack
      (roundWithAccuracy Format.binary64 s (m * 2 ^ k) (e + -k) .exact))).isFinite = true := by
  have hlog := log2_mul_two_pow hm.ne' k
  have hpos : (0 : ℚ) ≤ (m * 2 ^ k : Nat) := by positivity
  refine (roundsTo_round (x := (m * 2 ^ k : Nat)) rfl (by omega) ?_).isFinite_pack.mpr ?_
  · rw [abs_of_nonneg hpos]
    exact keeps_exact _
  · have hpow : (2 : ℚ) ^ k * 2 ^ (e + -k) = 2 ^ e := by
      rw [← zpow_natCast, ← zpow_add₀ two_ne_zero]
      congr 1
      omega
    rwa [abs_mul, abs_of_nonneg hpos, abs_of_nonneg (by positivity), Nat.cast_mul, mul_assoc,
      Nat.cast_pow, Nat.cast_ofNat, hpow]

/-- Multiplied by one, a finite double is finite. -/
theorem isFinite_mul_one {x y : Float} (hx : x.isFinite = true)
    (hy : y.toModel.unpack = .finite .positive (2 ^ 52) (-52) (by decide)) :
    (x * y).isFinite = true := by
  have hbound := abs_value_lt hx
  have hrounded := rounded_of_isFinite hx
  change (Float.ofModel (.pack (UnpackedFloat.mul Format.binary64 x.toModel.unpack
    y.toModel.unpack))).isFinite = true
  rw [value] at hbound
  rw [hy]
  generalize x.toModel.unpack = u at hbound hrounded
  rcases u with _ | _ | s | ⟨s, m, e, hm⟩
  · exact hrounded.elim
  · exact hrounded.elim
  · cases s <;> rfl
  · rw [abs_unpackedValue] at hbound
    exact isFinite_lengthened hm le_rfl hbound

/-- A natural number that is not too great is converted to a finite double. -/
theorem isFinite_ofScientific {n : Nat} (hn : n < tooGreat) :
    (Float.ofScientific n false 0).isFinite = true := by
  -- a number of at most 53 bits is converted, and then multiplied by the first power of ten
  by_cases h : n < 2 ^ 53
  · have hone : Float.exactlyRepresentablePowersOfTen[0].toModel.unpack =
        .finite .positive (2 ^ 52) (-52) (by decide) := by rfl
    have hsmall : n.toUInt64.toNat = n := Nat.mod_eq_of_lt (by omega)
    rw [Float.ofScientific, dif_pos ⟨h, by decide⟩]
    refine isFinite_mul_one ?_ hone
    refine (roundsTo_normalize n.toUInt64.toNat).isFinite_pack.mpr ?_
    simpa [hsmall] using hn
  · have hpos : 0 < n := by omega
    have hround := isFinite_lengthened (k := 53) (e := 0) (s := .positive) hpos (by decide)
      (by simpa using hn)
    have hscientific : UnpackedFloat.ofScientific Format.binary64 n 0 =
        roundWithAccuracy Format.binary64 .positive (n * 2 ^ 53) (0 + -53) .exact := by
      rw [UnpackedFloat.ofScientific, dif_neg hpos.ne', if_neg (by decide), if_neg (by simp),
        if_pos le_rfl, UnpackedFloat.mul]
      have hmantissa : n <<< Format.binary64.mantissaBits * 10 ^ Int.toNat 0 = n * 2 ^ 53 := by
        rw [Nat.shiftLeft_eq]
        exact Nat.mul_one _
      rw [hmantissa]
      rfl
    rw [Float.ofScientific, dif_neg (by omega)]
    change (Float.ofModel (.pack (UnpackedFloat.ofScientific Format.binary64 n 0))).isFinite = true
    rwa [hscientific]

theorem lt_tooGreat {n : Nat} (hn : n < 2 ^ 64) : n < tooGreat := by
  have hn' : (n : ℚ) < 2 ^ 64 := mod_cast hn
  have hstep : (2 : ℚ) ^ 12 ≤ topStep := pow_le_pow_right₀ one_le_two (by decide)
  calc
    (n : ℚ) < (2 ^ 53 - 1 / 2) * 2 ^ 12 := by linarith
    _ ≤ tooGreat := mul_le_mul_of_nonneg_left hstep (by norm_num)

end Double

theorem Decimal.isFinite_nearest {n : Nat} (hn : n < 2 ^ 64) :
    (nearest n 0).isFinite = true := by
  by_cases h : n = 0
  · rw [nearest, if_pos h]
    rfl
  · have hlog : n.log2 < 64 := (Nat.log2_lt h).mpr hn
    rw [nearest, if_neg h, if_neg (by omega), if_neg (by omega)]
    exact isFinite_ofScientific (lt_tooGreat hn)

end PlaneFigure
