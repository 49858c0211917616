import Mathlib
import PlaneFigure.Random.Uniform

/-!
The real numbers: exact arithmetic.
-/

namespace PlaneFigure

-- numerals of reals depend on it; with a name, it is the same in all definitions
instance atLeastTwo_two : Nat.AtLeastTwo 2 := ⟨le_refl 2⟩

noncomputable instance : Number ℝ where
  ofNat n := n
  pi := Real.pi
  sqrt := Real.sqrt
  sin := Real.sin
  cos := Real.cos
  acos := Real.arccos
  tanh := Real.tanh
  exp := Real.exp
  abs x := |x|
  max := max
  min := min
  lt x y := open Classical in decide (x < y)
  le x y := open Classical in decide (x ≤ y)
  eq x y := open Classical in decide (x = y)
  isFinite _ := true

/-- Reals are drawn with 52 random bits, as doubles are. They are not written in messages. -/
noncomputable instance : Uniform ℝ where
  draw range word :=
    (word >>> 12).toNat / 2 ^ 52 * ((range.high - range.low) / (1 - 1 / 2 ^ 52)) + range.low
  drawable _ := true
  text _ := ""

namespace Number

variable {x y : ℝ}

@[simp] theorem real_sqrt : sqrt x = √x := rfl

@[simp] theorem real_sin : sin x = Real.sin x := rfl

@[simp] theorem real_cos : cos x = Real.cos x := rfl

@[simp] theorem real_tanh : tanh x = Real.tanh x := rfl

@[simp] theorem real_lt : (lt x y = true) ↔ x < y := by simp [lt]

@[simp] theorem real_le : (le x y = true) ↔ x ≤ y := by simp [le]

@[simp] theorem real_eq : (eq x y = true) ↔ x = y := by simp [eq]

end Number

end PlaneFigure
