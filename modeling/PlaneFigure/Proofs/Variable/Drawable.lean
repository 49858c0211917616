import Mathlib
import PlaneFigure.Proofs.Number.Nearest
import PlaneFigure.Proofs.Variable.Request

/-!
Ranges that numbers can be drawn from. The length of a range and its quotient by the greatest
fraction are rounded, and neither may be rounded to infinity. So the range has to be shorter than
the middle of the two doubles between which the quotient gets too great.
-/

namespace PlaneFigure

open Float.Model Double

/-- The exact length of a range. -/
def Range.length (range : Range Float) : ℚ := |value range.high - value range.low|

namespace Random

variable {range : Range Float} {d : Float}

/-- The least length of a range that is too long to draw from. -/
def tooLong : ℚ := (2 ^ 54 - 5) * 2 ^ 970

theorem tooLong_pos : 0 < tooLong := by
  rw [tooLong]
  exact mul_pos (by norm_num) (by positivity)

theorem unpack_greatestFraction : greatestFraction.toModel.unpack =
    .finite .positive (2 ^ 53 - 2) (-53) (by decide) :=
  rfl

/-- The quotient of a length is finite just if the length is less than `2 ^ 53 - 2` steps: divided
by the greatest fraction, these are `2 ^ 53` steps, one more than the greatest double has. -/
theorem isFinite_quotient (hd : d.isFinite = true) :
    (d / greatestFraction).isFinite = true ↔ |value d| < (2 ^ 53 - 2) * topStep := by
  have hu := rounded_of_isFinite hd
  have hpos : 0 < 2 ^ 53 - 2 := by decide
  have hdiv := roundsTo_div hu .positive (-53) hpos
  obtain ⟨q, hq⟩ : ∃ q, UnpackedFloat.div Format.binary64 d.toModel.unpack
      (.finite .positive (2 ^ 53 - 2) (-53) (by decide)) = q := ⟨_, rfl⟩
  have hpack : d / greatestFraction = Float.ofModel (.pack q) := by
    rw [← hq, ← unpack_greatestFraction]
    rfl
  have hfraction : |unpackedValue (.finite .positive (2 ^ 53 - 2) (-53) (by decide))| =
      (2 ^ 53 - 2) / 2 ^ 53 := by
    rw [abs_unpackedValue]
    norm_num
  rw [hq] at hdiv
  have hself := hu.roundsTo.le_iff (n := 2 ^ 53 - 2) (by decide) (by decide) (by decide)
  rw [hpack, hdiv.isFinite_pack, abs_div, hfraction, div_lt_iff₀ (by norm_num), tooGreat, value,
    lt_iff_not_ge, lt_iff_not_ge, not_iff_not]
  norm_num at hself ⊢
  have hstep := topStep_pos
  constructor <;> intro h
  · rw [hself]
    linarith
  · linarith

/-- A length that is too great for a double has no finite quotient. -/
theorem not_isFinite_quotient {u : UnpackedFloat} (hu : Rounded u) (hgreat : ¬ Canonical u) :
    (Float.ofModel (.pack u) / greatestFraction).isFinite = false := by
  obtain ⟨s, hs⟩ := hu.unpack_pack hgreat
  have hdiv : Float.ofModel (.pack u) / greatestFraction =
      Float.ofModel (.pack (.infinity (s / .positive))) := by
    change Float.ofModel
      (.pack (UnpackedFloat.div Format.binary64 (Float.Model.pack u).unpack _)) = _
    rw [hs]
    rfl
  rw [hdiv]
  cases s <;> rfl

/-- The stretching factor is finite just if the range is not too long. -/
theorem isFinite_stretch (hlow : range.low.isFinite = true) (hhigh : range.high.isFinite = true) :
    (stretch range).isFinite = true ↔ range.length < tooLong := by
  have hsub := roundsTo_sub (rounded_of_isFinite hhigh) (rounded_of_isFinite hlow)
  obtain ⟨u, hu⟩ : ∃ u, UnpackedFloat.sub Format.binary64 range.high.toModel.unpack
      range.low.toModel.unpack = u := ⟨_, rfl⟩
  have hpack : range.high - range.low = Float.ofModel (.pack u) := hu ▸ rfl
  rw [hu] at hsub
  have hlength : range.length < tooLong ↔
      |unpackedValue u| < (2 ^ 53 - 2) * topStep := by
    have hreach := hsub.le_iff (n := 2 ^ 53 - 2) (by decide) (by decide) (by decide)
    have htooLong : tooLong = (((2 ^ 53 - 2 : Nat) : ℚ) - 1 / 2) * topStep := by
      have hstep : topStep = 2 * 2 ^ 970 := (zpow_ofNat 2 971).trans (pow_succ' 2 970)
      have hhalf : ((2 ^ 53 - 2 : Nat) : ℚ) - 1 / 2 = (2 ^ 54 - 5) / 2 := by norm_num
      rw [tooLong, hstep, hhalf, ← mul_assoc, div_mul_cancel₀ _ two_ne_zero]
    rw [Range.length, lt_iff_not_ge, lt_iff_not_ge, not_iff_not, htooLong]
    norm_num at hreach ⊢
    exact hreach.symm
  rw [stretch, hpack, hlength]
  by_cases hcanonical : Canonical u
  · rw [isFinite_quotient (hsub.rounded.isFinite_pack.mpr hcanonical)]
    have hvalue : value (Float.ofModel (.pack u)) = unpackedValue u :=
      congrArg unpackedValue (unpack_pack hcanonical)
    rw [hvalue]
  · refine iff_of_false (by simp [not_isFinite_quotient hsub.rounded hcanonical]) fun hlt => ?_
    refine hcanonical (hsub.rounded.canonical_iff.mpr (hlt.trans ?_))
    exact mul_lt_mul_of_pos_right (by norm_num) topStep_pos

end Random

variable {S μ : Type} [Scalar S Float μ] {r : VariableRequest Float} {c : Canvas Float μ}

/-- A range that does not go up has no length. -/
theorem Range.Proper.length_eq_zero {range : Range Float} (h : range.Proper)
    (hlt : ¬ range.low < range.high) : range.length = 0 := by
  obtain ⟨hlow, hhigh, horder⟩ := h
  have hl := isNaN_of_isFinite hlow
  have hh := isNaN_of_isFinite hhigh
  have hkey : key range.high = key range.low :=
    le_antisymm (le_iff.mp ((Double.not_lt hl hh).mp hlt)).2.2
      (le_iff.mp ((Double.not_lt hh hl).mp horder)).2.2
  rw [Range.length, value_eq_of_key hhigh hlow hkey, sub_self, abs_zero]

/-- Where a value can be had for a variable: its name is pinned, all variables have the same, or its
range is not too long to draw from. -/
theorem Canvas.canDraw_iff (hrange : r.range.Proper) :
    c.draws.canDraw r.name r.range = true ↔
      (c.draws.pins.lookup r.name).isSome = true ∨ (∃ k, c.draws.initial = .constant k) ∨
        r.range.length < Random.tooLong := by
  rw [Draws.canDraw, Draws.fixed?]
  cases c.draws.pins.lookup r.name with
  | some x => simp
  | none =>
      cases c.draws.initial with
      | constant k => simp
      | uniform seed =>
          by_cases hlt : r.range.low < r.range.high
          · have hdrawable := Random.isFinite_stretch hrange.1 hrange.2.1
            simpa [Number.lt, hlt, Uniform.drawable] using hdrawable
          · have hzero := hrange.length_eq_zero hlt
            simpa [Number.lt, hlt, hzero] using Random.tooLong_pos

namespace Canvas

/-- A valid request is granted just if its name is pinned, all variables have the same value, or its
range is not too long to draw from; otherwise nothing is drawn, and nothing changes. -/
theorem request_granted_iff (h : r.validate = .ok ()) :
    ((∃ x, (request (S := S) r c).1 = .ok x) ↔
      (c.draws.pins.lookup r.name).isSome = true ∨ (∃ k, c.draws.initial = .constant k) ∨
        r.range.length < Random.tooLong) ∧
    ((¬ ∃ x, (request (S := S) r c).1 = .ok x) →
      request (S := S) r c = (.error (.undrawable r.range), c)) := by
  rw [← canDraw_iff (VariableRequest.validate_eq_ok.mp h).2]
  cases hdraw : c.draws.canDraw r.name r.range with
  | false => simp [request_of_undrawable h hdraw]
  | true =>
      obtain ⟨x, memory, value, draws, hrequest⟩ := request_of_canDraw (S := S) h hdraw
      simp [hrequest]

/-- The range that is drawn from by default is short. -/
theorem request_granted_default :
    (⟨"x", [], ⟨-1.0, 1.0⟩⟩ : VariableRequest Float).validate = .ok () ∧
      ∃ x, (request (S := Float) ⟨"x", [], ⟨-1.0, 1.0⟩⟩ (start () (.uniform 0))).1 = .ok x := by
  have hvalid : (⟨"x", [], ⟨-1.0, 1.0⟩⟩ : VariableRequest Float).validate = .ok () :=
    VariableRequest.validate_of_proper nofun (by decide +kernel)
  have hlength : Range.length ⟨-1.0, 1.0⟩ < Random.tooLong := by
    have hlow : (-1.0 : Float).toModel.unpack = .finite .negative (2 ^ 52) (-52) (by decide) := rfl
    have hhigh : (1.0 : Float).toModel.unpack = .finite .positive (2 ^ 52) (-52) (by decide) := rfl
    have hlength : Range.length ⟨-1.0, 1.0⟩ = 2 := by
      rw [Range.length, Double.value, Double.value, hlow, hhigh]
      norm_num [unpackedValue, UnpackedFloat.Sign.apply]
    have hpow : (1 : ℚ) ≤ 2 ^ 970 := one_le_pow₀ one_le_two
    calc
      Range.length ⟨-1.0, 1.0⟩ < (2 ^ 54 - 5) * 1 := by
        rw [hlength]
        norm_num
      _ ≤ Random.tooLong := mul_le_mul_of_nonneg_left hpow (by norm_num)
  exact ⟨hvalid, (request_granted_iff hvalid).1.mpr (.inr (.inr hlength))⟩

/-- The ends are finite and in order, but their distance is not a double. -/
theorem request_undrawable_huge :
    (⟨"x", [], ⟨-1e308, 1e308⟩⟩ : VariableRequest Float).validate = .ok () ∧
      request (S := Float) ⟨"x", [], ⟨-1e308, 1e308⟩⟩ (start () (.uniform 0)) =
        (.error (.undrawable ⟨-1e308, 1e308⟩), start () (.uniform 0)) := by
  have hvalid : (⟨"x", [], ⟨-1e308, 1e308⟩⟩ : VariableRequest Float).validate = .ok () :=
    VariableRequest.validate_of_proper nofun (by decide +kernel)
  exact ⟨hvalid, request_of_undrawable hvalid (by decide +kernel)⟩

end Canvas

end PlaneFigure
