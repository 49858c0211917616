import Mathlib
import PlaneFigure.Number

/-!
Doubles as signs, mantissas and exponents. A double unpacks to its canonical form, with a mantissa of
53 bits unless the exponent is the least there is; whatever is in canonical form comes out of packing
unchanged. So what is proved of unpacked operations holds of doubles.
-/

namespace PlaneFigure.Double

open Float.Model Float.Model.UnpackedFloat

/-- The forms that doubles unpack to. -/
def Canonical : UnpackedFloat → Prop
  | .finite _ m e _ => m < 2 ^ 53 ∧ -1074 ≤ e ∧ e ≤ 971 ∧ (2 ^ 52 ≤ m ∨ e = -1074)
  | _ => True

/-- The mantissa of a normal number has its first bit in front. -/
theorem append_leading (m : BitVec 52) : (1#1 ++ m).toNat = 2 ^ 52 + m.toNat := by
  rw [BitVec.toNat_append, ← Nat.shiftLeft_add_eq_or_of_lt m.isLt]
  rfl

theorem canonical_unpack (b : BitVec 64) :
    Canonical (UnpackedFloat.unpack Format.binary64 b) := by
  have hmantissa : (@unpackMantissa Format.binary64 b).toNat < 2 ^ 52 := BitVec.isLt _
  have hexponent : (@unpackExponent Format.binary64 b).toNat < 2 ^ 11 := BitVec.isLt _
  unfold UnpackedFloat.unpack
  simp only [Format.exponentBias]
  split
  · split <;> trivial
  next hfinite =>
    have hmax : (@unpackExponent Format.binary64 b).toNat ≠ 2047 := fun h =>
      hfinite (BitVec.eq_of_toNat_eq h)
    split
    next hzero =>
      split
      · trivial
      · simp only [hzero, Canonical]
        norm_num
        omega
    next hnormal =>
      have hpos : (@unpackExponent Format.binary64 b).toNat ≠ 0 := fun h =>
        hnormal (BitVec.eq_of_toNat_eq h)
      simp only [Canonical, append_leading]
      norm_num
      omega

theorem unpack_packedInfinity (s : Sign) :
    UnpackedFloat.unpack Format.binary64 (packedInfinity Format.binary64 s) = .infinity s := by
  cases s <;> rfl

/-- A normal number is packed with the last 52 bits of its mantissa. -/
theorem unpack_pack_normal {s : Sign} {m : Nat} {e : Int} {hm : 0 < m} (hlow : 2 ^ 52 ≤ m)
    (hhigh : m < 2 ^ 53) (he : -1074 ≤ e) (he' : e ≤ 971) :
    UnpackedFloat.unpack Format.binary64
      (UnpackedFloat.pack Format.binary64 (.finite s m e hm)) = .finite s m e hm := by
  have hlog : m.log2 = 52 := (Nat.log2_eq_iff (Nat.ne_of_gt hm)).mpr ⟨hlow, hhigh⟩
  have hexponent : (BitVec.ofNat 11 (e + 1075).toNat).toNat = (e + 1075).toNat := by
    rw [BitVec.toNat_ofNat, Nat.mod_eq_of_lt (by omega)]
  have hfinite : BitVec.ofNat 11 (e + 1075).toNat ≠ -1#11 := by
    intro h
    have h := congrArg BitVec.toNat h
    rw [hexponent] at h
    norm_num at h
    omega
  have hnormal : BitVec.ofNat 11 (e + 1075).toNat ≠ 0#11 := by
    intro h
    have h := congrArg BitVec.toNat h
    rw [hexponent] at h
    norm_num at h
    omega
  have hpack : UnpackedFloat.pack Format.binary64 (.finite s m e hm) =
      packComponents Format.binary64 s (BitVec.ofNat 11 (e + 1075).toNat) (BitVec.ofNat 52 m) := by
    simp only [UnpackedFloat.pack, Format.exponentBias, Format.mantissaBits, hlog]
    norm_num [add_assoc]
    omega
  rw [hpack, UnpackedFloat.unpack]
  simp only [unpackExponent_packComponents, unpackMantissa_packComponents,
    unpackSign_packComponents, Sign.ofBitVec_toBitVec, if_neg hfinite, if_neg hnormal,
    append_leading, hexponent, Format.exponentBias, BitVec.toNat_ofNat]
  congr 1
  · omega
  · norm_num
    omega

theorem unpack_pack_subnormal {s : Sign} {m : Nat} {hm : 0 < m} (hhigh : m < 2 ^ 52) :
    UnpackedFloat.unpack Format.binary64
      (UnpackedFloat.pack Format.binary64 (.finite s m (-1074) hm)) =
        .finite s m (-1074) hm := by
  have hlog : m.log2 < 52 := (Nat.log2_lt (Nat.ne_of_gt hm)).mpr hhigh
  have hmantissa : (BitVec.ofNat 52 m).toNat = m := by
    rw [BitVec.toNat_ofNat, Nat.mod_eq_of_lt hhigh]
  have hzero : BitVec.ofNat 52 m ≠ 0#52 := by
    intro h
    have h := congrArg BitVec.toNat h
    rw [hmantissa] at h
    norm_num at h
    omega
  have hpack : UnpackedFloat.pack Format.binary64 (.finite s m (-1074) hm) =
      packComponents Format.binary64 s 0#11 (BitVec.ofNat 52 m) := by
    simp only [UnpackedFloat.pack, Format.exponentBias, Format.mantissaBits]
    norm_num
    omega
  rw [hpack, UnpackedFloat.unpack]
  simp only [unpackExponent_packComponents, unpackMantissa_packComponents,
    unpackSign_packComponents, Sign.ofBitVec_toBitVec, hmantissa, dif_neg hzero]
  rfl

theorem unpack_pack {u : UnpackedFloat} (hu : Canonical u) :
    (Float.Model.pack u).unpack = u := by
  change UnpackedFloat.unpack Format.binary64 (UnpackedFloat.pack Format.binary64 u) = u
  cases u with
  | infinity s => exact unpack_packedInfinity s
  | notANumber => exact unpack_packedNaN
  | zero s => exact unpack_packedZero
  | finite s m e hm =>
      obtain ⟨hhigh, he, he', hlow⟩ := hu
      by_cases hnormal : 2 ^ 52 ≤ m
      · exact unpack_pack_normal hnormal hhigh he he'
      · obtain rfl : e = -1074 := hlow.resolve_left hnormal
        exact unpack_pack_subnormal (Nat.lt_of_not_le hnormal)

theorem pack_unpack (x : Float) : Float.ofModel (.pack x.toModel.unpack) = x := by
  obtain ⟨⟨bits, hvalid⟩⟩ := x
  have h := pack_unpack_of_valid hvalid
  simp only [Float.Model.pack, Float.Model.unpack, h]

theorem neg_canonical {u : UnpackedFloat} (hu : Canonical u) : Canonical u.neg := by
  cases u <;> exact hu

theorem unpack_neg (x : Float) : (-x).toModel.unpack = x.toModel.unpack.neg :=
  unpack_pack (neg_canonical (canonical_unpack _))

/-- Negation changes the sign and nothing else, so it is its own inverse, also where there is no
number. -/
theorem neg_neg (x : Float) : - -x = x := by
  have hneg : x.toModel.unpack.neg.neg = x.toModel.unpack := by
    rcases x.toModel.unpack with s | _ | s | ⟨s, m, e, hm⟩ <;> (try cases s) <;> rfl
  calc
    - -x = Float.ofModel (.pack (-x).toModel.unpack.neg) := rfl
    _ = Float.ofModel (.pack x.toModel.unpack) := by rw [unpack_neg, hneg]
    _ = x := pack_unpack x

end PlaneFigure.Double
