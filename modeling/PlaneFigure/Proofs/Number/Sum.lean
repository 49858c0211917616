import Mathlib
import PlaneFigure.Proofs.Number.Canonical

/-!
Sums of doubles from the left. The order of two factors does not matter, and zero is neutral for
addition, up to the sign of a zero that results. So up to this sign, a sum that begins with zero is
the one that begins with its first summand.
-/

namespace PlaneFigure

/-- The sum from the left, beginning with the first number; zero if there is none. -/
def leftSum {R : Type} [Number R] : List R → R
  | [] => 0.0
  | x :: xs => xs.foldl (· + ·) x

namespace Double

open Float.Model Float.Model.UnpackedFloat

/-- The same double, up to the sign of zero. -/
def Same (x y : Float) : Prop := x = y ∨ (x == 0.0) = true ∧ (y == 0.0) = true

variable {x y z : Float}

theorem Same.refl (x : Float) : Same x x := .inl rfl

theorem Same.symm (h : Same x y) : Same y x := h.imp Eq.symm And.symm

theorem Same.trans (hxy : Same x y) (hyz : Same y z) : Same x z := by
  obtain rfl | ⟨hx, hy⟩ := hxy
  · exact hyz
  obtain rfl | ⟨-, hz⟩ := hyz
  · exact .inr ⟨hx, hy⟩
  · exact .inr ⟨hx, hz⟩

/-- Zeros of either sign compare equal to zero, and nothing else does. -/
theorem beq_zero_iff : (x == 0.0) = true ↔ ∃ s, x.toModel.unpack = .zero s := by
  change (x.toModel.unpack.compare (.zero .positive) == some .eq) = true ↔ _
  rcases x.toModel.unpack with s | _ | s | ⟨s, m, e, hm⟩ <;> (try cases s) <;>
    simp [UnpackedFloat.compare]

theorem mul_comm (x y : Float) : x * y = y * x := by
  have hsign : ∀ s t : Sign, s * t = t * s := by
    intro s t
    cases s <;> cases t <;> rfl
  have hmul : ∀ u v : UnpackedFloat, UnpackedFloat.mul Format.binary64 u v =
      UnpackedFloat.mul Format.binary64 v u := by
    intro u v
    rcases u with s | _ | s | ⟨s, m, e, hm⟩ <;> rcases v with t | _ | t | ⟨t, n, d, hn⟩ <;>
      simp only [UnpackedFloat.mul, hsign, Nat.mul_comm, Int.add_comm]
  exact congrArg (fun u => Float.ofModel (.pack u)) (hmul ..)

/-- A zero that is added changes nothing, but for the sign of another zero. -/
theorem zero_add (hx : (x == 0.0) = true) (y : Float) : Same (x + y) y := by
  obtain ⟨s, hs⟩ := beq_zero_iff.mp hx
  have hadd : x + y = Float.ofModel (.pack (UnpackedFloat.add Format.binary64 (.zero s)
      y.toModel.unpack)) := by
    rw [← hs]
    rfl
  by_cases hy : (y == 0.0) = true
  · refine .inr ⟨?_, hy⟩
    obtain ⟨t, ht⟩ := beq_zero_iff.mp hy
    rw [hadd, ht]
    cases s <;> cases t <;> rfl
  · have hneutral : UnpackedFloat.add Format.binary64 (.zero s) y.toModel.unpack =
        y.toModel.unpack := by
      rw [beq_zero_iff] at hy
      rcases hu : y.toModel.unpack with t | _ | t | ⟨t, n, d, hn⟩
      case zero => exact (hy ⟨t, hu⟩).elim
      all_goals rfl
    exact .inl (by rw [hadd, hneutral, pack_unpack])

theorem Same.add_right (h : Same x y) (z : Float) : Same (x + z) (y + z) := by
  obtain rfl | ⟨hx, hy⟩ := h
  · exact .refl _
  · exact (zero_add hx z).trans (zero_add hy z).symm

/-- The sign of a zero that a sum begins with can change nothing but the sign of a zero. -/
theorem Same.foldl (h : Same x y) (l : List Float) :
    Same (l.foldl (· + ·) x) (l.foldl (· + ·) y) := by
  induction l generalizing x y with
  | nil => exact h
  | cons z l ih => exact ih (h.add_right z)

/-- A sum may as well begin with zero. -/
theorem sum_same (l : List Float) : Same (Number.sum l) (leftSum l) := by
  cases l with
  | nil => exact .refl _
  | cons x l => exact (zero_add (x := 0.0) rfl x).foldl l

end Double

end PlaneFigure
