import Mathlib
import PlaneFigure.Proofs.Number.Order

/-!
Products and quotients of doubles that are not negative. A product is rounded to the nearest double,
and rounding does not pass a double, so a factor of at most one makes nothing greater.
-/

namespace PlaneFigure.Double

open Float.Model Float.Model.UnpackedFloat

/-! ### Rounding a mantissa -/

/-- The exponent at which a mantissa of 53 bits holds a number, unless it is less than the least. -/
theorem targetExponent_eq (m : Nat) (e : Int) :
    Format.binary64.targetExponent (totalExponent m e) = max (m.log2 + e - 52) (-1074) := by
  simp only [Format.targetExponent, totalExponent, Format.mantissaBits, Format.minExponent]
  norm_num
  omega

theorem shiftRight_succ (em : ExtendedMantissa) (k : Nat) :
    em >>> (k + 1) = (em >>> k).shiftRightOne :=
  rfl

theorem shiftRight_mantissa (em : ExtendedMantissa) (k : Nat) :
    (em >>> k).mantissa = em.mantissa / 2 ^ k := by
  induction k with
  | zero => simp [HShiftRight.hShiftRight, Nat.repeat]
  | succ k ih =>
      rw [shiftRight_succ, ExtendedMantissa.shiftRightOne, ih, Nat.div_div_eq_div_mul, pow_succ]

/-- Nothing is lost of a multiple of the power of two. -/
theorem shiftRight_exact (n k : Nat) :
    (⟨n * 2 ^ k, false, false⟩ : ExtendedMantissa) >>> k = ⟨n, false, false⟩ := by
  induction k generalizing n with
  | zero => simp [HShiftRight.hShiftRight, Nat.repeat]
  | succ k ih =>
      have hdouble : n * 2 ^ (k + 1) = (n * 2) * 2 ^ k := by ring
      rw [shiftRight_succ, hdouble, ih]
      simp [ExtendedMantissa.shiftRightOne]

theorem le_roundedMantissa (em : ExtendedMantissa) :
    em.mantissa ≤ em.roundedMantissa ∧ em.roundedMantissa ≤ em.mantissa + 1 := by
  rcases em with ⟨m, r, s⟩
  cases r <;> cases s <;>
    simp [ExtendedMantissa.roundedMantissa, ExtendedMantissa.accuracy,
      Accuracy.roundToNearestEven]
  omega

/-- What is at most a whole number is rounded to at most this. -/
theorem roundedMantissa_le {m n k : Nat} (h : m ≤ n * 2 ^ k) :
    ((⟨m, false, false⟩ : ExtendedMantissa) >>> k).roundedMantissa ≤ n := by
  obtain hlt | rfl := Nat.lt_or_eq_of_le h
  · have hfloor : m / 2 ^ k < n := (Nat.div_lt_iff_lt_mul (by positivity)).mpr hlt
    have hround := (le_roundedMantissa ((⟨m, false, false⟩ : ExtendedMantissa) >>> k)).2
    rw [shiftRight_mantissa] at hround
    exact hround.trans hfloor
  · rw [shiftRight_exact]
    exact Nat.le_refl n

theorem shift_of_lt {m : Nat} {e : Int} (hm : m < 2 ^ 53) (he : -1074 ≤ e) :
    shiftToTargetExponent Format.binary64 m e .exact = (⟨m, false, false⟩, e) := by
  have hlog : m.log2 ≤ 52 := by
    by_cases hzero : m = 0
    · simp [hzero]
    · exact Nat.lt_succ_iff.mp ((Nat.log2_lt hzero).mpr hm)
  have hshift : (max ((m.log2 : Int) + e - 52) (-1074) - e).toNat = 0 := by omega
  simp [shiftToTargetExponent, targetExponent_eq, shiftToExponent, hshift,
    ExtendedMantissa.ofMantissaAndAccuracy, HShiftRight.hShiftRight, Nat.repeat]

theorem shift_two_pow {e : Int} (he : -1074 ≤ e) :
    shiftToTargetExponent Format.binary64 (2 ^ 53) e .exact = (⟨2 ^ 52, false, false⟩, e + 1) := by
  have hshift : (max (((2 ^ 53 : Nat).log2 : Int) + e - 52) (-1074) - e).toNat = 1 := by
    rw [Nat.log2_two_pow]
    omega
  simp only [shiftToTargetExponent, targetExponent_eq, shiftToExponent, hshift,
    ExtendedMantissa.ofMantissaAndAccuracy]
  exact congrArg (·, e + 1) (shiftRight_exact (2 ^ 52) 1)

/-- The mantissa that is left of a number at the exponent `t`. -/
def kept (m : Nat) (e : Int) (acc : Accuracy) (t : Int) : ExtendedMantissa :=
  ExtendedMantissa.ofMantissaAndAccuracy m acc >>> (t - e).toNat

section Kept

variable {m : Nat} {e t : Int} {acc : Accuracy}

theorem kept_mantissa : (kept m e acc t).mantissa = m / 2 ^ (t - e).toNat := by
  rw [kept, shiftRight_mantissa]
  rcases acc with _ | (_ | _ | _) <;> rfl

/-- There are no more than 53 bits left. -/
theorem kept_lt (acc : Accuracy) (ht : max (m.log2 + e - 52) (-1074) = t) :
    (kept m e acc t).mantissa < 2 ^ 53 := by
  have hlog : m.log2 + 1 ≤ 53 + (t - e).toNat := by omega
  rw [kept_mantissa, Nat.div_lt_iff_lt_mul (by positivity), ← pow_add]
  exact Nat.lt_log2_self.trans_le (Nat.pow_le_pow_right (by decide) hlog)

/-- All 53 bits are left, unless the exponent is the least. -/
theorem le_kept (acc : Accuracy) (ht : max (m.log2 + e - 52) (-1074) = t) (he : e ≤ t)
    (hleast : t ≠ -1074) : 2 ^ 52 ≤ (kept m e acc t).mantissa := by
  have hlog : m.log2 = 52 + (t - e).toNat := by omega
  have hm : m ≠ 0 := by
    rintro rfl
    rw [Nat.log2_zero] at hlog
    omega
  rw [kept_mantissa, Nat.le_div_iff_mul_le (by positivity), ← pow_add, ← hlog]
  exact Nat.log2_self_le hm

/-- Rounding shifts the mantissa to the target exponent, and once more if it has become longer. -/
theorem round_of_shifts (s : Sign) (acc : Accuracy) {r : Nat} {u : Int}
    (ht : max (m.log2 + e - 52) (-1074) = t) (he : e ≤ t)
    (hshift : shiftToTargetExponent Format.binary64 (kept m e acc t).roundedMantissa t .exact =
      (⟨r, false, false⟩, u)) :
    roundWithAccuracy Format.binary64 s m e acc =
      if h : r = 0 then .zero s else .finite s r u (Nat.pos_of_ne_zero h) := by
  have hfirst : shiftToTargetExponent Format.binary64 m e acc = (kept m e acc t, t) := by
    simp only [shiftToTargetExponent, targetExponent_eq, ht, shiftToExponent, kept]
    congr 1
    omega
  simp only [roundWithAccuracy, hfirst, hshift]

end Kept

/-- The mantissa at the target exponent `t`, rounded to the nearest whole number. -/
def rounded (m : Nat) (e t : Int) : Nat :=
  ((⟨m, false, false⟩ : ExtendedMantissa) >>> (t - e).toNat).roundedMantissa

theorem rounded_le_two_pow {m : Nat} {e t : Int} (ht : max (m.log2 + e - 52) (-1074) = t) :
    rounded m e t ≤ 2 ^ 53 :=
  (le_roundedMantissa _).2.trans (kept_lt .exact ht)

/-- Below the least exponent but one, rounding keeps all 53 bits. -/
theorem two_pow_le_rounded {m : Nat} {e t : Int} (ht : max (m.log2 + e - 52) (-1074) = t)
    (he : e ≤ t) (hleast : t ≠ -1074) : 2 ^ 52 ≤ rounded m e t :=
  (le_kept .exact ht he hleast).trans (le_roundedMantissa _).1

/-- Rounding comes to zero, to the rounded mantissa, or to the next power of two. -/
theorem round_cases (s : Sign) {m : Nat} {e t : Int} (ht : max (m.log2 + e - 52) (-1074) = t)
    (he : e ≤ t) :
    roundWithAccuracy Format.binary64 s m e .exact = .zero s ∨
    (∃ hpos, rounded m e t < 2 ^ 53 ∧
      roundWithAccuracy Format.binary64 s m e .exact = .finite s (rounded m e t) t hpos) ∨
    rounded m e t = 2 ^ 53 ∧
      roundWithAccuracy Format.binary64 s m e .exact = .finite s (2 ^ 52) (t + 1) (by decide) := by
  have hleast : -1074 ≤ t := by omega
  obtain hlt | heq := Nat.lt_or_eq_of_le (rounded_le_two_pow ht)
  · have hround := round_of_shifts s .exact ht he (shift_of_lt hlt hleast)
    by_cases hzero : rounded m e t = 0
    · exact .inl (hround.trans (dif_pos hzero))
    · exact .inr (.inl ⟨Nat.pos_of_ne_zero hzero, hlt, hround.trans (dif_neg hzero)⟩)
  · have hround := round_of_shifts s .exact ht he (heq ▸ shift_two_pow hleast)
    exact .inr (.inr ⟨heq, hround.trans (dif_neg (by decide))⟩)

/-! ### Factors of at most one -/

/-- A number of at most one, as a mantissa and an exponent. -/
theorem mantissa_le_of_le_one {b : Float} (hpos : 0 < b) (hle : b ≤ 1) :
    ∃ n d hn, b.toModel.unpack = .finite .positive n d hn ∧ d ≤ -52 ∧ n ≤ 2 ^ (-d).toNat ∧
      (2 ^ 52 ≤ n ∨ d = -1074) := by
  have hcanonical : Canonical b.toModel.unpack := canonical_unpack _
  obtain ⟨-, -, hpos⟩ := lt_iff.mp hpos
  obtain ⟨-, -, hle⟩ := le_iff.mp hle
  change toLex (0, toLex (0, 0)) < rank _ at hpos
  change rank _ ≤ toLex (1, toLex (-52, 2 ^ 52)) at hle
  rcases hb : b.toModel.unpack with s | _ | s | ⟨s, n, d, hn⟩ <;> rw [hb] at hpos hle hcanonical
  · cases s <;> simp [rank, Prod.Lex.toLex_lt_toLex, Prod.Lex.toLex_le_toLex] at hpos hle
  · simp [rank] at hpos
  · simp [rank] at hpos
  · cases s with
    | negative => simp [rank, Prod.Lex.toLex_lt_toLex] at hpos
    | positive =>
        simp [rank, Prod.Lex.toLex_le_toLex] at hle
        obtain ⟨hhigh, -, -, hlow⟩ := hcanonical
        refine ⟨n, d, hn, rfl, by omega, ?_, hlow⟩
        obtain hlt | ⟨rfl, hn⟩ := hle
        · have hexp : 53 ≤ (-d).toNat := by omega
          exact hhigh.le.trans (Nat.pow_le_pow_right (by decide) hexp)
        · exact_mod_cast hn

/-- The forms that are no number less than zero. -/
def Nonnegative : UnpackedFloat → Prop
  | .zero _ => True
  | .finite s _ _ _ => s = .positive
  | .infinity s => s = .positive
  | .notANumber => False

theorem zero_le_iff {x : Float} : 0 ≤ x ↔ Nonnegative x.toModel.unpack := by
  have hzero : (0 : Float).isNaN = false := by decide
  have hkey : key 0 = toLex (0, toLex (0, 0)) := rfl
  rw [le_iff, hzero, isNaN_eq_false, hkey, key]
  generalize x.toModel.unpack = u
  rcases u with s | _ | s | ⟨s, m, e, hm⟩ <;> (try cases s) <;>
    simp [rank, Nonnegative, Prod.Lex.toLex_le_toLex]

theorem isNaN_of_nonnegative {u : UnpackedFloat} (hu : Nonnegative u) : u ≠ .notANumber := by
  rintro rfl
  exact hu

/-- The product of a double and a number of at most one is rounded at an exponent no greater than
that of the double, where the double itself is a whole number. -/
theorem exists_productExponent {m n : Nat} {e d : Int} {hm : 0 < m} {s : Sign} (hn : 0 < n)
    (hcanonical : Canonical (.finite s m e hm)) (hd : d ≤ -52) (hle : n ≤ 2 ^ (-d).toNat)
    (hnormal : 2 ^ 52 ≤ n ∨ d = -1074) :
    ∃ t, max (((m * n).log2 : Int) + (e + d) - 52) (-1074) = t ∧ e + d ≤ t ∧ t ≤ e ∧
      rounded (m * n) (e + d) t ≤ m * 2 ^ (e - t).toNat := by
  obtain ⟨hhigh, he, -, hlow⟩ := hcanonical
  have hpos : m * n ≠ 0 := Nat.mul_ne_zero (Nat.ne_of_gt hm) (Nat.ne_of_gt hn)
  have hlog : (m * n).log2 < 53 + (-d).toNat := by
    rw [Nat.log2_lt hpos, pow_add]
    exact Nat.mul_lt_mul_of_lt_of_le hhigh hle (by positivity)
  -- a product of less than 53 bits has the least exponent
  have hlong : 52 ≤ (m * n).log2 ∨ e + d ≤ -1074 := by
    rw [Nat.le_log2 hpos]
    obtain hn | rfl := hnormal
    · exact .inl (hn.trans (Nat.le_mul_of_pos_left n hm))
    · obtain hm' | rfl := hlow
      · exact .inl (hm'.trans (Nat.le_mul_of_pos_right m hn))
      · exact .inr (by decide)
  obtain ⟨t, ht⟩ : ∃ t, max (((m * n).log2 : Int) + (e + d) - 52) (-1074) = t := ⟨_, rfl⟩
  have hte : e + d ≤ t ∧ t ≤ e := by omega
  refine ⟨t, ht, hte.1, hte.2, ?_⟩
  have hexp : (e - t).toNat + (t - (e + d)).toNat = (-d).toNat := by omega
  apply roundedMantissa_le
  rw [mul_assoc, ← pow_add, hexp]
  exact Nat.mul_le_mul_left m hle

/-- What the product of a double and a number of at most one is rounded to: not below zero, and not
above the double. -/
theorem round_product {m n : Nat} {e d : Int} {hm : 0 < m} {s : Sign} (hn : 0 < n)
    (hcanonical : Canonical (.finite s m e hm)) (hd : d ≤ -52) (hle : n ≤ 2 ^ (-d).toNat)
    (hnormal : 2 ^ 52 ≤ n ∨ d = -1074) :
    let u := roundWithAccuracy Format.binary64 .positive (m * n) (e + d) .exact
    Canonical u ∧ Nonnegative u ∧ rank u ≤ toLex (1, toLex (e, (m : ℤ))) := by
  obtain ⟨t, ht, hdt, hte, hround⟩ := exists_productExponent hn hcanonical hd hle hnormal
  obtain ⟨hhigh, he, he', -⟩ := hcanonical
  intro u
  obtain hu | ⟨hr, hlt, hu⟩ | ⟨hr, hu⟩ := round_cases .positive ht hdt
  · rw [show u = .zero .positive from hu]
    simp [Canonical, Nonnegative, rank, Prod.Lex.toLex_le_toLex]
  · rw [show u = .finite .positive _ t hr from hu]
    refine ⟨⟨hlt, by omega, by omega, ?_⟩, rfl, ?_⟩
    · by_cases hleast : t = -1074
      · exact .inr hleast
      · exact .inl (two_pow_le_rounded ht hdt hleast)
    · obtain hlt | rfl := lt_or_eq_of_le hte
      · simp [rank, Prod.Lex.toLex_le_toLex, hlt]
      · simpa [rank, Prod.Lex.toLex_le_toLex] using hround
  · rw [show u = .finite .positive (2 ^ 52) (t + 1) (by decide) from hu]
    -- a mantissa of 53 bits does not reach the power of two at its own exponent
    have hlt : t < e := by
      refine lt_of_le_of_ne hte ?_
      rintro rfl
      simp [hr] at hround
      omega
    refine ⟨⟨by decide, by omega, by omega, .inl le_rfl⟩, rfl, ?_⟩
    obtain hnext | rfl := lt_or_eq_of_le (Int.add_one_le_of_lt hlt)
    · simp [rank, Prod.Lex.toLex_le_toLex, hnext]
    · have hdouble : (t + 1 - t).toNat = 1 := by omega
      rw [hr, hdouble] at hround
      have hm' : 2 ^ 52 ≤ m := by omega
      simpa [rank, Prod.Lex.toLex_le_toLex] using Int.ofNat_le.mpr hm'

/-- A factor of at most one makes nothing greater, and nothing negative. -/
theorem mul_le {x b : Float} (hx : 0 ≤ x) (hpos : 0 < b) (hle : b ≤ 1) : 0 ≤ x * b ∧ x * b ≤ x := by
  obtain ⟨n, d, hn, hb, hd, hn', hnormal⟩ := mantissa_le_of_le_one hpos hle
  have hcanonical : Canonical x.toModel.unpack := canonical_unpack _
  have hnumber := (le_iff.mp hx).2.1
  rw [zero_le_iff] at hx
  -- a product in canonical form is what the double unpacks to
  suffices h : ∃ u, UnpackedFloat.mul Format.binary64 x.toModel.unpack b.toModel.unpack = u ∧
      Canonical u ∧ Nonnegative u ∧ rank u ≤ rank x.toModel.unpack by
    obtain ⟨u, hu, hcanonical, hnonneg, hrank⟩ := h
    have hmul : (x * b).toModel.unpack = u := by
      rw [← unpack_pack hcanonical, ← hu]
      rfl
    refine ⟨zero_le_iff.mpr (hmul ▸ hnonneg), le_iff.mpr ⟨?_, hnumber, ?_⟩⟩
    · exact isNaN_eq_false.mpr (isNaN_of_nonnegative (hmul ▸ hnonneg))
    · rwa [key, hmul]
  rw [hb]
  rcases hx' : x.toModel.unpack with s | _ | s | ⟨s, m, e, hm⟩ <;> rw [hx'] at hx hcanonical
  · obtain rfl := hx
    exact ⟨_, rfl, trivial, rfl, le_rfl⟩
  · exact hx.elim
  · exact ⟨_, rfl, trivial, trivial, le_rfl⟩
  · obtain rfl := hx
    exact ⟨_, rfl, round_product hn hcanonical hd hn' hnormal⟩

/-! ### Quotients and the lesser of two -/

/-- Packing rounds too much to infinity, but keeps the sign. -/
theorem nonnegative_unpack_pack {u : UnpackedFloat} (hu : Nonnegative u) :
    Nonnegative (Float.Model.pack u).unpack := by
  change Nonnegative (UnpackedFloat.unpack Format.binary64 (UnpackedFloat.pack Format.binary64 u))
  have hcomponents : ∀ (e : BitVec 11) (m : BitVec 52), e ≠ -1#11 →
      Nonnegative (UnpackedFloat.unpack Format.binary64
        (packComponents Format.binary64 .positive e m)) := by
    intro e m he
    rw [UnpackedFloat.unpack]
    simp only [unpackExponent_packComponents, unpackMantissa_packComponents,
      unpackSign_packComponents, Sign.ofBitVec_toBitVec]
    rw [if_neg he]
    split
    · split <;> trivial
    · rfl
  rcases u with s | _ | s | ⟨s, m, e, hm⟩
  · rwa [UnpackedFloat.pack, unpack_packedInfinity]
  · exact hu.elim
  · rw [UnpackedFloat.pack, unpack_packedZero]
    trivial
  · obtain rfl := hu
    rw [UnpackedFloat.pack]
    split
    · rw [unpack_packedInfinity]
      rfl
    next hfinite =>
      split
      · refine hcomponents _ _ fun h => ?_
        have h := congrArg BitVec.toNat h
        simp [Format.exponentBias] at h hfinite
        omega
      · exact hcomponents _ _ (by decide)

theorem nonnegative_round {m : Nat} {e : Int} {acc : Accuracy} :
    Nonnegative (roundWithAccuracy Format.binary64 .positive m e acc) := by
  simp only [roundWithAccuracy]
  split
  · trivial
  · rfl

theorem div_nonneg {x b : Float} (hx : 0 ≤ x) (hpos : 0 < b) (hle : b ≤ 1) : 0 ≤ x / b := by
  obtain ⟨n, d, hn, hb, -⟩ := mantissa_le_of_le_one hpos hle
  rw [zero_le_iff] at hx ⊢
  change Nonnegative (Float.Model.pack
    (UnpackedFloat.div Format.binary64 x.toModel.unpack b.toModel.unpack)).unpack
  apply nonnegative_unpack_pack
  rw [hb]
  generalize x.toModel.unpack = u at hx
  rcases u with s | _ | s | ⟨s, m, e, hm⟩
  · obtain rfl := hx
    rfl
  · exact hx.elim
  · trivial
  · obtain rfl := hx
    exact nonnegative_round

/-- The lesser of two numbers, neither of them negative. -/
theorem smaller_nonneg {a b : Float} (ha : 0 ≤ a) (hb : 0 ≤ b) :
    0 ≤ smallerDouble a b ∧ smallerDouble a b ≤ b := by
  have hna := (le_iff.mp ha).2.1
  have hnb := (le_iff.mp hb).2.1
  rw [smallerDouble, hna, hnb]
  by_cases hlt : b < a
  · simpa [hlt] using ⟨hb, le_refl hnb⟩
  · simpa [hlt] using ⟨ha, (not_lt hnb hna).mp hlt⟩

/-! ### Products and roots -/

variable {x y : Float}

/-- At least zero, of either sign, or not a number. -/
def NotNegative (x : Float) : Prop := x.isNaN = false → 0 ≤ x

theorem notNegative_iff : NotNegative x ↔
    x.toModel.unpack = .notANumber ∨ Nonnegative x.toModel.unpack := by
  rw [NotNegative, isNaN_eq_false, zero_le_iff, or_iff_not_imp_left]

theorem notNegative_pack {u : UnpackedFloat} (hu : u = .notANumber ∨ Nonnegative u) :
    NotNegative (Float.ofModel (.pack u)) := by
  rw [notNegative_iff]
  obtain rfl | hu := hu
  · exact .inl rfl
  · exact .inr (nonnegative_unpack_pack hu)

theorem NotNegative.mul (hx : NotNegative x) (hy : NotNegative y) : NotNegative (x * y) := by
  rw [notNegative_iff] at hx hy
  refine notNegative_pack
    (u := UnpackedFloat.mul Format.binary64 x.toModel.unpack y.toModel.unpack) ?_
  generalize x.toModel.unpack = u at hx
  generalize y.toModel.unpack = v at hy
  obtain rfl | hu := hx
  · exact .inl rfl
  obtain rfl | hv := hy
  · cases u <;> exact .inl rfl
  rcases u with s | _ | s | ⟨s, m, e, hm⟩ <;> rcases v with t | _ | t | ⟨t, n, d, hn⟩ <;>
    cases hu <;> cases hv
  · exact .inr rfl
  · exact .inl rfl
  · exact .inr rfl
  · exact .inl rfl
  · exact .inr trivial
  · exact .inr trivial
  · exact .inr rfl
  · exact .inr trivial
  · exact .inr nonnegative_round

theorem notNegative_sqrt (x : Float) : NotNegative x.sqrt := by
  refine notNegative_pack (u := UnpackedFloat.sqrt Format.binary64 x.toModel.unpack) ?_
  rcases x.toModel.unpack with (_ | _) | _ | s | ⟨_ | _, m, e, hm⟩
  · exact .inl rfl
  · exact .inr rfl
  · exact .inl rfl
  · exact .inr trivial
  · exact .inl rfl
  · exact .inr nonnegative_round

/-- What is greater than something that is not negative is positive. -/
theorem NotNegative.pos (hx : NotNegative x) (h : x < y) : 0 < y := by
  obtain ⟨hnx, hny, hlt⟩ := lt_iff.mp h
  obtain ⟨hzero, -, hle⟩ := le_iff.mp (hx hnx)
  exact lt_iff.mpr ⟨hzero, hny, hle.trans_lt hlt⟩

end PlaneFigure.Double
