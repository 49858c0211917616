import Mathlib
import PlaneFigure.Proofs.Number.Rounding

/-!
Rounding by exact values. What is kept of a number while its mantissa is shortened tells on which
side of the middle between two doubles it lies; so the double that it is rounded to reaches another
one just if the number itself comes at least half way to it.
-/

namespace PlaneFigure.Double

open Float.Model Float.Model.UnpackedFloat

/-! ### Exact values -/

/-- The number that is meant; zero where it is not finite. -/
def unpackedValue : UnpackedFloat → ℚ
  | .finite s m e _ => s.apply m * 2 ^ e
  | _ => 0

/-- The number that a double is, exactly; zero where it is not finite. -/
def value (x : Float) : ℚ := unpackedValue x.toModel.unpack

@[simp] theorem unpackedValue_zero {s : Sign} : unpackedValue (.zero s) = 0 := rfl

theorem abs_unpackedValue {s : Sign} {m : Nat} {e : Int} {hm : 0 < m} :
    |unpackedValue (.finite s m e hm)| = m * 2 ^ e := by
  have hpow : (0 : ℚ) ≤ 2 ^ e := by positivity
  cases s <;> simp [unpackedValue, Sign.apply, abs_mul, abs_of_nonneg hpow]

/-- The distance between the greatest doubles. -/
def topStep : ℚ := 2 ^ (971 : ℤ)

theorem topStep_pos : 0 < topStep := by
  unfold topStep
  positivity

/-- Canonical but for the exponent, which may be too great for a double. -/
def Rounded : UnpackedFloat → Prop
  | .finite _ m e _ => m < 2 ^ 53 ∧ -1074 ≤ e ∧ (2 ^ 52 ≤ m ∨ e = -1074)
  | .zero _ => True
  | _ => False

/-! ### What is kept of a number -/

/-- The mantissa is at most the number; the round bit tells whether another half is, and the sticky
bit whether there is still more. -/
def Keeps : ExtendedMantissa → ℚ → Prop
  | ⟨m, false, false⟩, x => x = m
  | ⟨m, false, true⟩, x => m < x ∧ x < m + 1 / 2
  | ⟨m, true, false⟩, x => x = m + 1 / 2
  | ⟨m, true, true⟩, x => m + 1 / 2 < x ∧ x < m + 1

theorem Keeps.shiftRightOne {em : ExtendedMantissa} {x : ℚ} (h : Keeps em x) :
    Keeps em.shiftRightOne (x / 2) := by
  rcases em with ⟨m, r, s⟩
  have hm : ((m % 2 : Nat) : ℚ) + 2 * (m / 2 : Nat) = m := mod_cast Nat.mod_add_div m 2
  obtain hbit | hbit := Nat.mod_two_eq_zero_or_one m <;> cases r <;> cases s <;>
    simp [Keeps, ExtendedMantissa.shiftRightOne, hbit] at h hm ⊢ <;> (try constructor) <;> linarith

theorem Keeps.shiftRight {em : ExtendedMantissa} {x : ℚ} (h : Keeps em x) (k : Nat) :
    Keeps (em >>> k) (x / 2 ^ k) := by
  induction k with
  | zero => simpa [HShiftRight.hShiftRight, Nat.repeat] using h
  | succ k ih =>
      rw [shiftRight_succ, pow_succ, ← div_div]
      exact ih.shiftRightOne

theorem Keeps.bounds {em : ExtendedMantissa} {x : ℚ} (h : Keeps em x) :
    em.mantissa ≤ x ∧ x < em.mantissa + 1 := by
  rcases em with ⟨m, r, s⟩
  cases r <;> cases s <;> simp only [Keeps] at h ⊢ <;> constructor <;> linarith

/-- A number is rounded to an even one or beyond it just if it is at most one half less. -/
theorem Keeps.le_rounded {em : ExtendedMantissa} {x : ℚ} (h : Keeps em x) {n : Nat} (hn : Even n) :
    n ≤ em.roundedMantissa ↔ n - 1 / 2 ≤ x := by
  have hnearest : ∀ k : Nat, (k : ℚ) - 1 / 2 ≤ x → x < k + 1 / 2 → (n ≤ k ↔ n - 1 / 2 ≤ x) := by
    intro k hlow hhigh
    constructor
    · intro hle
      have hle : (n : ℚ) ≤ k := Nat.cast_le.mpr hle
      linarith
    · intro hx
      have hlt : (n : ℚ) < (k + 1 : Nat) := by
        push_cast
        linarith
      exact Nat.lt_succ_iff.mp (Nat.cast_lt.mp hlt)
  rcases em with ⟨m, r, s⟩
  cases r <;> cases s <;> simp only [Keeps] at h
  · exact hnearest m (by linarith) (by linarith)
  · exact hnearest m (by linarith) (by linarith)
  · -- from the middle, it goes to the even one of both neighbours
    have heven : n ≤ m + m % 2 ↔ n ≤ m + 1 := by
      obtain ⟨k, rfl⟩ := hn
      omega
    exact heven.trans (hnearest (m + 1) (by push_cast; linarith) (by push_cast; linarith))
  · exact hnearest (m + 1) (by push_cast; linarith) (by push_cast; linarith)

theorem keeps_exact (m : Nat) : Keeps (.ofMantissaAndAccuracy m .exact) m :=
  rfl

/-- What is kept of a quotient. -/
theorem keeps_quotient (m : Nat) {n : Nat} (hn : 0 < n) :
    Keeps (.ofMantissaAndAccuracy (m / n) (accuracyOfFraction (m % n) n)) (m / n) := by
  have hpos : (0 : ℚ) < n := Nat.cast_pos.mpr hn
  have hlt : ((m % n : Nat) : ℚ) < n := Nat.cast_lt.mpr (Nat.mod_lt m hn)
  have hdivision : ((m / n : Nat) : ℚ) + (m % n : Nat) / n = m / n := by
    rw [eq_div_iff hpos.ne', add_mul, div_mul_cancel₀ _ hpos.ne', mul_comm]
    exact_mod_cast Nat.div_add_mod m n
  rw [← hdivision]
  generalize m / n = q
  generalize m % n = r at hlt
  unfold accuracyOfFraction
  split_ifs with hzero
  · simp [Keeps, ExtendedMantissa.ofMantissaAndAccuracy, hzero]
  · have hr : (0 : ℚ) < r := Nat.cast_pos.mpr (Nat.pos_of_ne_zero hzero)
    have hr' : 0 < (r : ℚ) / n := div_pos hr hpos
    rcases h : compare (2 * r) n with _ | _ | _
    · have hcompare : ((2 * r : Nat) : ℚ) < n := Nat.cast_lt.mpr (Nat.compare_eq_lt.mp h)
      push_cast at hcompare
      have hmiddle : (r : ℚ) / n < 1 / 2 := by
        rw [div_lt_div_iff₀ hpos two_pos]
        linarith
      simp only [Keeps, ExtendedMantissa.ofMantissaAndAccuracy]
      constructor <;> linarith
    · have hcompare : ((2 * r : Nat) : ℚ) = n := Nat.cast_inj.mpr (Nat.compare_eq_eq.mp h)
      push_cast at hcompare
      have hmiddle : (r : ℚ) / n = 1 / 2 := by
        rw [div_eq_div_iff hpos.ne' two_ne_zero]
        linarith
      simp only [Keeps, ExtendedMantissa.ofMantissaAndAccuracy]
      linarith
    · have hcompare : (n : ℚ) < (2 * r : Nat) := Nat.cast_lt.mpr (Nat.compare_eq_gt.mp h)
      push_cast at hcompare
      have hmiddle : 1 / 2 < (r : ℚ) / n := by
        rw [div_lt_div_iff₀ two_pos hpos]
        linarith
      have hone : (r : ℚ) / n < 1 := (div_lt_one hpos).mpr hlt
      simp only [Keeps, ExtendedMantissa.ofMantissaAndAccuracy]
      constructor <;> linarith

/-! ### Rounding -/

variable {s : Sign} {m : Nat} {e t : Int} {acc : Accuracy} {x : ℚ}

theorem keeps_kept (hx : Keeps (.ofMantissaAndAccuracy m acc) x) (he : e ≤ t) :
    Keeps (kept m e acc t) (x * 2 ^ (e - t)) := by
  have hpow : x / 2 ^ (t - e).toNat = x * 2 ^ (e - t) := by
    rw [div_eq_mul_inv, ← zpow_natCast, ← zpow_neg]
    congr 2
    omega
  exact hpow ▸ hx.shiftRight (t - e).toNat

/-- A mantissa that rounding has made longer is shifted once more, which keeps the value. -/
theorem round_kept (ht : max (m.log2 + e - 52) (-1074) = t) (he : e ≤ t) :
    Rounded (roundWithAccuracy Format.binary64 s m e acc) ∧
      |unpackedValue (roundWithAccuracy Format.binary64 s m e acc)| =
        (kept m e acc t).roundedMantissa * 2 ^ t := by
  have hleast : -1074 ≤ t := by omega
  have hbounds := le_roundedMantissa (kept m e acc t)
  have hhigh := kept_lt acc ht
  obtain hr | hr : (kept m e acc t).roundedMantissa < 2 ^ 53 ∨
      (kept m e acc t).roundedMantissa = 2 ^ 53 := by omega
  · rw [round_of_shifts s acc ht he (shift_of_lt hr hleast)]
    split_ifs with hzero
    · simp [Rounded, unpackedValue, hzero]
    · refine ⟨⟨hr, hleast, ?_⟩, abs_unpackedValue⟩
      by_cases h : t = -1074
      · exact .inr h
      · exact .inl ((le_kept acc ht he h).trans hbounds.1)
  · rw [round_of_shifts s acc ht he (hr ▸ shift_two_pow hleast), dif_neg (by decide), hr]
    refine ⟨⟨by decide, by omega, .inl le_rfl⟩, abs_unpackedValue.trans ?_⟩
    rw [zpow_add_one₀ two_ne_zero]
    norm_num
    ring

/-- Among the greatest doubles, the rounded number reaches an even multiple of their distance just
if the number comes within one half of it. -/
theorem le_round_iff (ht : max (m.log2 + e - 52) (-1074) = t) (he : e ≤ t)
    (hx : Keeps (.ofMantissaAndAccuracy m acc) x) {n : Nat} (hn : Even n) (hlow : 2 ^ 52 < n)
    (hhigh : n ≤ 2 ^ 53) :
    n * topStep ≤ |unpackedValue (roundWithAccuracy Format.binary64 s m e acc)| ↔
      (n - 1 / 2) * topStep ≤ x * 2 ^ e := by
  have hy := keeps_kept hx he
  have hscale : x * 2 ^ e = x * 2 ^ (e - t) * 2 ^ t := by
    rw [mul_assoc, ← zpow_add₀ two_ne_zero, sub_add_cancel]
  rw [(round_kept ht he).2, hscale]
  obtain ⟨hfloor, hceil⟩ := hy.bounds
  have hrounded := hy.le_rounded hn
  have hbounds := le_roundedMantissa (kept m e acc t)
  have hlt := kept_lt acc ht
  generalize x * 2 ^ (e - t) = y at *
  have hr : (0 : ℚ) ≤ (kept m e acc t).roundedMantissa := Nat.cast_nonneg _
  have hmantissa : (0 : ℚ) ≤ (kept m e acc t).mantissa := Nat.cast_nonneg _
  have hhalf : ((n : ℚ) - 1 / 2) * topStep ≤ n * topStep :=
    mul_le_mul_of_nonneg_right (by linarith) topStep_pos.le
  obtain hless | rfl | hmore := lt_trichotomy t 971
  · -- at a lesser exponent, 53 bits do not come near
    have hpow : (2 : ℚ) ^ t ≤ 2 ^ (970 : ℤ) := zpow_le_zpow_right₀ one_le_two (by omega)
    have hpos : (0 : ℚ) < 2 ^ (970 : ℤ) := by positivity
    have hdouble : topStep = 2 * 2 ^ (970 : ℤ) := by
      rw [topStep, show (971 : ℤ) = 1 + 970 from rfl, zpow_add₀ two_ne_zero, zpow_one]
    have hn' : (2 ^ 52 + 1 : ℚ) ≤ n := mod_cast hlow
    have hfits : ∀ a : ℚ, 0 ≤ a → a ≤ 2 ^ 53 → a * 2 ^ t < (n - 1 / 2) * topStep := by
      intro a ha hle
      calc
        a * 2 ^ t ≤ 2 ^ 53 * 2 ^ (970 : ℤ) := mul_le_mul hle hpow (by positivity) (by positivity)
        _ < (n - 1 / 2) * topStep := by
          rw [hdouble, ← mul_assoc]
          exact mul_lt_mul_of_pos_right (by linarith) hpos
    refine iff_of_false (fun h => ?_) (fun h => ?_)
    · have hle : ((kept m e acc t).roundedMantissa : ℚ) ≤ 2 ^ 53 := by
        exact_mod_cast hbounds.2.trans hlt
      exact absurd (hhalf.trans h) (not_le.mpr (hfits _ hr hle))
    · have hle : ((kept m e acc t).mantissa : ℚ) + 1 ≤ 2 ^ 53 := mod_cast hlt
      exact absurd h (not_le.mpr (hfits y (by linarith) (by linarith)))
  · rw [topStep, mul_le_mul_iff_of_pos_right (by positivity),
      mul_le_mul_iff_of_pos_right (by positivity), Nat.cast_le, hrounded]
  · -- at a greater one, 53 bits come at least as far
    have hpow : (2 : ℚ) ^ (972 : ℤ) ≤ 2 ^ t := zpow_le_zpow_right₀ one_le_two (by omega)
    have hdouble : (2 : ℚ) ^ (972 : ℤ) = 2 * topStep := by
      rw [topStep, show (972 : ℤ) = 1 + 971 from rfl, zpow_add₀ two_ne_zero, zpow_one]
    have hn' : (n : ℚ) ≤ 2 ^ 53 := mod_cast hhigh
    have hfills := le_kept acc ht he (by omega)
    have hreaches : ∀ a : ℚ, 2 ^ 52 ≤ a → (n : ℚ) * topStep ≤ a * 2 ^ t := by
      intro a ha
      calc
        (n : ℚ) * topStep ≤ 2 ^ 53 * topStep :=
          mul_le_mul_of_nonneg_right hn' topStep_pos.le
        _ = 2 ^ 52 * 2 ^ (972 : ℤ) := by
          rw [hdouble]
          ring
        _ ≤ a * 2 ^ t := mul_le_mul ha hpow (by positivity) (by linarith)
    have hfills' : (2 ^ 52 : ℚ) ≤ (kept m e acc t).mantissa := mod_cast hfills
    refine iff_of_true (hreaches _ (mod_cast hfills.trans hbounds.1)) ?_
    exact hhalf.trans (hreaches y (hfills'.trans hfloor))

/-! ### Operations that round -/

/-- A double, or one too great, that `x` is rounded to: among the greatest doubles, it reaches an
even multiple of their distance just if `x` comes within one half of it. -/
structure RoundsTo (x : ℚ) (u : UnpackedFloat) : Prop where
  rounded : Rounded u
  le_iff : ∀ {n : Nat}, Even n → 2 ^ 52 < n → n ≤ 2 ^ 53 →
    (n * topStep ≤ |unpackedValue u| ↔ (n - 1 / 2) * topStep ≤ |x|)

theorem roundsTo_round (ht : max (m.log2 + e - 52) (-1074) = t) (he : e ≤ t)
    (hx : Keeps (.ofMantissaAndAccuracy m acc) |x|) :
    RoundsTo (x * 2 ^ e) (roundWithAccuracy Format.binary64 s m e acc) where
  rounded := (round_kept ht he).1
  le_iff hn hlow hhigh := by
    have hpow : (0 : ℚ) < 2 ^ e := by positivity
    rw [abs_mul, abs_of_pos hpow]
    exact le_round_iff ht he hx hn hlow hhigh

/-- What is rounded already is rounded to itself. -/
theorem Rounded.roundsTo {u : UnpackedFloat} (hu : Rounded u) : RoundsTo (unpackedValue u) u := by
  rcases u with s | _ | s | ⟨s, m, e, hm⟩
  · exact hu.elim
  · exact hu.elim
  · refine ⟨hu, fun {n} _ hlow _ => ?_⟩
    have hn : (2 ^ 52 : ℚ) < n := mod_cast hlow
    rw [unpackedValue_zero, abs_zero]
    exact iff_of_false (not_le.mpr (mul_pos (by linarith) topStep_pos))
      (not_le.mpr (mul_pos (by linarith) topStep_pos))
  · obtain ⟨hhigh, hleast, hlow⟩ := hu
    have hlog : m.log2 < 53 := (Nat.log2_lt hm.ne').mpr hhigh
    have hfull : 2 ^ 52 ≤ m → 52 ≤ m.log2 := (Nat.le_log2 hm.ne').mpr
    have ht : max (m.log2 + e - 52) (-1074) = e := by
      obtain hlow | rfl := hlow
      · have := hfull hlow
        omega
      · omega
    have hself : roundWithAccuracy Format.binary64 s m e .exact = .finite s m e hm := by
      have hkept : (kept m e .exact e).roundedMantissa = m := by
        rw [kept, sub_self]
        rfl
      have hshift : shiftToTargetExponent Format.binary64 (kept m e .exact e).roundedMantissa e
          .exact = (⟨m, false, false⟩, e) := by
        rw [hkept, shift_of_lt hhigh hleast]
      rw [round_of_shifts s .exact ht le_rfl hshift, dif_neg hm.ne']
    have hvalue : |(s.apply m : ℚ)| = m := by cases s <;> simp [Sign.apply]
    have hround := roundsTo_round (s := s) ht le_rfl (hvalue ▸ keeps_exact m)
    rwa [hself] at hround

theorem RoundsTo.of_abs {x y : ℚ} {u : UnpackedFloat} (h : RoundsTo x u) (hxy : |y| = |x|) :
    RoundsTo y u :=
  ⟨h.rounded, hxy ▸ h.le_iff⟩

theorem log2_mul_two_pow (hm : m ≠ 0) (k : Nat) : (m * 2 ^ k).log2 = m.log2 + k := by
  rw [Nat.log2_eq_iff (Nat.mul_ne_zero hm (by positivity)), add_right_comm, pow_add, pow_add]
  exact ⟨Nat.mul_le_mul_right _ (Nat.log2_self_le hm),
    Nat.mul_lt_mul_of_pos_right Nat.lt_log2_self (by positivity)⟩

/-- A mantissa is made as long as it takes before it is rounded. -/
theorem roundsTo_shifted (hm : m ≠ 0) (hx : |x| = m) :
    RoundsTo (x * 2 ^ e) (UnpackedFloat.round Format.binary64 s m e) := by
  obtain ⟨t, ht⟩ : ∃ t, max (m.log2 + e - 52) (-1074) = t := ⟨_, rfl⟩
  simp only [UnpackedFloat.round, targetExponent_eq, ht, decreaseExponent, Nat.shiftLeft_eq]
  set k := (e - t).toNat with hk
  have hscale : x * 2 ^ e = x * 2 ^ k * 2 ^ (e - k) := by
    rw [mul_assoc, ← zpow_natCast, ← zpow_add₀ two_ne_zero, add_sub_cancel]
  rw [hscale]
  refine roundsTo_round (t := t) ?_ (by omega) ?_
  · rw [log2_mul_two_pow hm]
    omega
  · rw [abs_mul, hx, abs_of_pos (by positivity)]
    exact_mod_cast keeps_exact (m * 2 ^ k)

theorem roundsTo_normalize (i : ℤ) :
    RoundsTo (i * 2 ^ e) (UnpackedFloat.normalize Format.binary64 i e .positive) := by
  have hcast : ∀ {j : ℤ}, 0 ≤ j → ((j.toNat : Nat) : ℚ) = j := fun hj =>
    mod_cast congrArg ((↑) : ℤ → ℚ) (Int.toNat_of_nonneg hj)
  unfold UnpackedFloat.normalize
  rcases h : compare i 0 with _ | _ | _
  · have hneg : i < 0 := compare_lt_iff_lt.mp h
    refine roundsTo_shifted (by omega) ?_
    rw [hcast (by omega), ← Int.cast_abs, abs_of_neg hneg]
  · obtain rfl : i = 0 := compare_eq_iff_eq.mp h
    simpa using Rounded.roundsTo (u := .zero .positive) trivial
  · have hpos : 0 < i := compare_gt_iff_gt.mp h
    refine roundsTo_shifted (by omega) ?_
    rw [hcast hpos.le, ← Int.cast_abs, abs_of_pos hpos]

theorem Rounded.neg {u : UnpackedFloat} (hu : Rounded u) : Rounded u.neg := by
  cases u <;> exact hu

theorem decreaseExponent_value (h : t ≤ e) :
    ((s.apply (decreaseExponent m e t).1 : ℤ) : ℚ) * 2 ^ t = s.apply m * 2 ^ e := by
  have hpow : (2 : ℚ) ^ e = 2 ^ (e - t).toNat * 2 ^ t := by
    rw [← zpow_natCast, ← zpow_add₀ two_ne_zero]
    congr 1
    omega
  rw [hpow]
  cases s <;> simp [decreaseExponent, Nat.shiftLeft_eq, Sign.apply, mul_assoc]

theorem roundsTo_sub {u v : UnpackedFloat} (hu : Rounded u) (hv : Rounded v) :
    RoundsTo (unpackedValue u - unpackedValue v) (UnpackedFloat.sub Format.binary64 u v) := by
  rcases u with _ | _ | s | ⟨s, m, e, hm⟩
  · exact hu.elim
  · exact hu.elim
  · rcases v with _ | _ | s' | ⟨s', n, d, hn⟩
    · exact hv.elim
    · exact hv.elim
    · refine Rounded.roundsTo (u := if s == -s' then .zero s else .zero .positive) ?_ |>.of_abs ?_
      · split <;> trivial
      · split <;> simp [unpackedValue]
    · refine (Rounded.neg hv).roundsTo.of_abs ?_
      rw [unpackedValue_zero, zero_sub, abs_neg, abs_unpackedValue, UnpackedFloat.neg,
        abs_unpackedValue]
  · rcases v with _ | _ | s' | ⟨s', n, d, hn⟩
    · exact hv.elim
    · exact hv.elim
    · refine hu.roundsTo.of_abs ?_
      rw [unpackedValue_zero, sub_zero]
    · have hexact := roundsTo_normalize (e := min e d) (s.apply (decreaseExponent m e (min e d)).1 -
        s'.apply (decreaseExponent n d (min e d)).1)
      rwa [Int.cast_sub, sub_mul, decreaseExponent_value (min_le_left e d),
        decreaseExponent_value (min_le_right e d)] at hexact

/-- A quotient has at most one bit less than the bits of its divisor leave. -/
theorem log2_le_log2_div (m : Nat) {n : Nat} (hn : 0 < n) :
    m.log2 ≤ (m / n).log2 + n.log2 + 1 := by
  by_cases hm : m = 0
  · simp [hm]
  refine Nat.lt_succ_iff.mp ((Nat.log2_lt hm).mpr ?_)
  calc
    m < (m / n + 1) * n := Nat.lt_mul_of_div_lt (Nat.lt_succ_self _) hn
    _ ≤ 2 ^ ((m / n).log2 + 1) * 2 ^ (n.log2 + 1) :=
      Nat.mul_le_mul Nat.lt_log2_self Nat.lt_log2_self.le
    _ = 2 ^ ((m / n).log2 + n.log2 + 1 + 1) := by
      rw [← pow_add]
      ring_nf

theorem roundsTo_div {u : UnpackedFloat} (hu : Rounded u) (s' : Sign) {n : Nat} (d : ℤ)
    (hn : 0 < n) :
    RoundsTo (unpackedValue u / unpackedValue (.finite s' n d hn))
      (UnpackedFloat.div Format.binary64 u (.finite s' n d hn)) := by
  rcases u with _ | _ | s | ⟨s, m, e, hm⟩
  · exact hu.elim
  · exact hu.elim
  · refine Rounded.roundsTo (u := .zero (s / s')) trivial |>.of_abs ?_
    simp
  · obtain ⟨t, ht⟩ : ∃ t, min (e - d) (max ((m.log2 : ℤ) + e - (n.log2 + d) - 53) (-1074)) = t :=
      ⟨_, rfl⟩
    have htarget : min (e - d) (Format.binary64.targetExponent
        (totalExponent m e - totalExponent n d)) = t := by
      rw [← ht]
      simp only [Format.targetExponent, totalExponent, Format.mantissaBits, Format.minExponent]
      norm_num
      omega
    simp only [UnpackedFloat.div, divCore, htarget, Nat.shiftLeft_eq]
    set k := (e - d - t).toNat with hk
    have hlog := log2_le_log2_div (m * 2 ^ k) hn
    rw [log2_mul_two_pow hm.ne'] at hlog
    have habs : |unpackedValue (.finite s m e hm) / unpackedValue (.finite s' n d hn)| =
        |((m * 2 ^ k : Nat) / n : ℚ) * 2 ^ t| := by
      have hpow : (2 : ℚ) ^ e / 2 ^ d = 2 ^ k * 2 ^ t := by
        rw [← zpow_natCast, ← zpow_sub₀ two_ne_zero, ← zpow_add₀ two_ne_zero]
        congr 1
        omega
      rw [abs_div, abs_unpackedValue, abs_unpackedValue, mul_div_mul_comm, hpow,
        abs_of_nonneg (by positivity)]
      push_cast
      ring
    refine RoundsTo.of_abs (roundsTo_round rfl (by omega) ?_) habs
    rw [abs_of_nonneg (by positivity)]
    exact keeps_quotient _ hn

/-! ### Doubles that are finite -/

/-- What is rounded is a double unless it reaches the power of two after the greatest. -/
theorem Rounded.canonical_iff {u : UnpackedFloat} (hu : Rounded u) :
    Canonical u ↔ |unpackedValue u| < 2 ^ 53 * topStep := by
  rcases u with _ | _ | s | ⟨s, m, e, hm⟩
  · exact hu.elim
  · exact hu.elim
  · exact iff_of_true trivial (by simpa using topStep_pos)
  · obtain ⟨hhigh, hleast, hlow⟩ := hu
    rw [abs_unpackedValue]
    obtain he | he := le_or_gt e 971
    · refine iff_of_true ⟨hhigh, hleast, he, hlow⟩ ?_
      have hm' : (m : ℚ) < 2 ^ 53 := mod_cast hhigh
      exact mul_lt_mul hm' (zpow_le_zpow_right₀ one_le_two he) (by positivity) (by positivity)
    · refine iff_of_false (fun hcanonical => LE.le.not_gt hcanonical.2.2.1 he) (LE.le.not_gt ?_)
      have hm' : (2 ^ 52 : ℚ) ≤ m := mod_cast hlow.resolve_right (by omega)
      calc
        (2 : ℚ) ^ 53 * topStep = 2 ^ 52 * 2 ^ (971 + 1 : ℤ) := by
          rw [zpow_add_one₀ two_ne_zero, topStep]
          ring
        _ ≤ (m : ℚ) * 2 ^ e := mul_le_mul hm' (zpow_le_zpow_right₀ one_le_two (by omega))
          (by positivity) (by positivity)

/-- What is too great for a double is packed as infinity. -/
theorem Rounded.unpack_pack {u : UnpackedFloat} (hu : Rounded u) (hgreat : ¬ Canonical u) :
    ∃ s, (Float.Model.pack u).unpack = .infinity s := by
  rcases u with _ | _ | s | ⟨s, m, e, hm⟩
  · exact hu.elim
  · exact hu.elim
  · exact (hgreat trivial).elim
  · obtain ⟨hhigh, hleast, hlow⟩ := hu
    have he : 971 < e := by
      by_contra he
      exact hgreat ⟨hhigh, hleast, by omega, hlow⟩
    refine ⟨s, ?_⟩
    change UnpackedFloat.unpack Format.binary64 (UnpackedFloat.pack Format.binary64 _) = _
    rw [UnpackedFloat.pack, if_pos, unpack_packedInfinity]
    simp only [Format.exponentBias]
    norm_num
    omega

theorem Rounded.isFinite_pack {u : UnpackedFloat} (hu : Rounded u) :
    (Float.ofModel (.pack u)).isFinite = true ↔ Canonical u := by
  change (Float.Model.pack u).unpack.isFinite = true ↔ _
  by_cases h : Canonical u
  · rw [Double.unpack_pack h]
    refine iff_of_true ?_ h
    rcases u with _ | _ | s | ⟨s, m, e, hm⟩
    · exact hu.elim
    · exact hu.elim
    · rfl
    · rfl
  · obtain ⟨s, hs⟩ := hu.unpack_pack h
    exact iff_of_false (by simp [hs, UnpackedFloat.isFinite]) h

/-- A finite double is rounded. -/
theorem rounded_of_isFinite {x : Float} (hx : x.isFinite = true) : Rounded x.toModel.unpack := by
  have hcanonical : Canonical x.toModel.unpack := canonical_unpack _
  change x.toModel.unpack.isFinite = true at hx
  generalize x.toModel.unpack = u at hcanonical hx
  rcases u with s | _ | s | ⟨s, m, e, hm⟩
  · cases hx
  · cases hx
  · trivial
  · exact ⟨hcanonical.1, hcanonical.2.1, hcanonical.2.2.2⟩

/-- The least number that is too great for a double. -/
def tooGreat : ℚ := (2 ^ 53 - 1 / 2) * topStep

/-- Whether what a number is rounded to is a double. -/
theorem RoundsTo.isFinite_pack {x : ℚ} {u : UnpackedFloat} (h : RoundsTo x u) :
    (Float.ofModel (.pack u)).isFinite = true ↔ |x| < tooGreat := by
  have hreach := h.le_iff (n := 2 ^ 53) (by decide) (by decide) le_rfl
  rw [h.rounded.isFinite_pack, h.rounded.canonical_iff, lt_iff_not_ge, lt_iff_not_ge, not_iff_not]
  exact_mod_cast hreach

theorem abs_value_lt {x : Float} (hx : x.isFinite = true) : |value x| < tooGreat := by
  have hself := (rounded_of_isFinite hx).roundsTo.isFinite_pack
  rw [pack_unpack] at hself
  exact hself.mp hx

/-- Finite doubles in the same place of the order are the same number. -/
theorem value_eq_of_key {x y : Float} (hx : x.isFinite = true) (hy : y.isFinite = true)
    (h : key x = key y) : value x = value y := by
  have hu := rounded_of_isFinite hx
  have hv := rounded_of_isFinite hy
  rw [key, key] at h
  rw [value, value]
  generalize x.toModel.unpack = u at hu h
  generalize y.toModel.unpack = v at hv h
  rcases u with s | _ | s | ⟨_ | _, m, e, hm⟩ <;> rcases v with s' | _ | s' | ⟨_ | _, n, d, hn⟩ <;>
    simp_all [rank, unpackedValue, Rounded]

end PlaneFigure.Double
