import Mathlib
import PlaneFigure.Proofs.Number.Natural
import PlaneFigure.Proofs.Json.RoundTrip

/-!
Natural numbers in documents. Written in decimal notation, a number of 64 bits is read back.
-/

namespace PlaneFigure

variable {n : Nat}

/-! ### Decimal notation -/

namespace Decimal

theorem toDigits_isDigit : ∀ c ∈ Nat.toDigits 10 n, c.isDigit :=
  fun _ hc => Nat.isDigit_of_mem_toDigits (by decide) le_rfl hc

/-- A number other than zero is written without a zero in front. -/
theorem head?_toDigits (hn : 0 < n) : (Nat.toDigits 10 n).head? ≠ some '0' := by
  induction n using Nat.strongRecOn with
  | ind n ih =>
      obtain hlt | hge := lt_or_ge n 10
      · rw [Nat.toDigits_of_lt_base hlt]
        interval_cases n <;> decide
      · rw [Nat.toDigits_of_base_le (by decide) hge, List.head?_append_of_ne_nil _ Nat.toDigits_ne_nil]
        exact ih (n / 10) (by omega) (by omega)

theorem read_toDigits : Numeral.read (Nat.toDigits 10 n) = some ⟨Nat.toDigits 10 n, none, none⟩ := by
  have htake : (Nat.toDigits 10 n).takeWhile Char.isDigit = Nat.toDigits 10 n :=
    List.takeWhile_eq_self_iff.mpr toDigits_isDigit
  have hdrop : (Nat.toDigits 10 n).dropWhile Char.isDigit = [] :=
    List.dropWhile_eq_nil_iff.mpr toDigits_isDigit
  rw [Numeral.read, htake, hdrop]

theorem value_toDigits : Numeral.value ⟨Nat.toDigits 10 n, none, none⟩ = nearest n 0 := by
  have hdigits : ofDigits (Nat.toDigits 10 n) = n := Nat.ofDigitChars_ten_toDigits
  simp [Numeral.value, hdigits]

end Decimal

/-! ### Documents -/

namespace Json

open Decimal

theorem toDigits_ne {c : Char} {cs : List Char} (hc : c.isDigit = false) :
    Nat.toDigits 10 n ≠ c :: cs := by
  intro heq
  have hdigit : c.isDigit := toDigits_isDigit c (heq ▸ List.mem_cons_self)
  simp [hc] at hdigit

theorem isNumber_toDigits (hn : n < 2 ^ 64) : isNumber (Nat.toDigits 10 n) = true := by
  have hleading : (Nat.toDigits 10 n).length = 1 ∨ (Nat.toDigits 10 n).head? ≠ some '0' := by
    obtain rfl | hpos := Nat.eq_zero_or_pos n
    · exact .inl (by decide)
    · exact .inr (head?_toDigits hpos)
  rw [isNumber]
  · simpa [read_toDigits, value_toDigits, isFinite_nearest hn, Nat.toDigits_ne_nil] using hleading
  · exact fun _ => toDigits_ne (by decide)

theorem wordToken?_toDigits (hn : n < 2 ^ 64) :
    wordToken? (Nat.toDigits 10 n) = some (.scalar (.nat n)) := by
  rw [wordToken?, if_neg (toDigits_ne (by decide)), if_neg (toDigits_ne (by decide)),
    if_neg (toDigits_ne (by decide)), if_pos (isNumber_toDigits hn),
    ← Nat.toString_eq_ofList_toDigits, nat]

theorem readable_nat {k : Nat} (hn : n < 2 ^ 64) : Readable k (.nat n) := by
  have hdigits : (toString n).toList = Nat.toDigits 10 n := by
    rw [Nat.toString_eq_ofList_toDigits, String.toList_ofList]
  refine .number (fun c hc => ?_) ?_
  · rw [hdigits] at hc
    simp [isWordChar, Char.isAlphanum, toDigits_isDigit c hc]
  · rw [hdigits, wordToken?_toDigits hn, nat]

end Json

end PlaneFigure
