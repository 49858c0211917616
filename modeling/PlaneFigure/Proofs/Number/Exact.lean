import PlaneFigure.Proofs.Number.Real

/-!
Exact arithmetic with an undefined result wherever a divisor vanishes or a radicand is negative. What
is computed from something undefined is undefined too. So a result that is a real number has met no
division by zero and no root of a negative number on its way, not even among constants that were
folded long before.
-/

namespace PlaneFigure

inductive Exact
  | undefined
  | real (x : ℝ)

namespace Exact

/-- An operation on real numbers; strict in what is undefined. -/
def map (f : ℝ → ℝ) : Exact → Exact
  | undefined => undefined
  | real x => real (f x)

/-- An operation on two real numbers; strict in what is undefined. -/
def map₂ (f : ℝ → ℝ → ℝ) : Exact → Exact → Exact
  | real x, real y => real (f x y)
  | _, _ => undefined

/-- The quotient, unless the divisor vanishes. -/
noncomputable def quotient : Exact → Exact → Exact
  | real x, real y => open Classical in if y = 0 then undefined else real (x / y)
  | _, _ => undefined

/-- The square root, unless the radicand is negative. -/
noncomputable def root : Exact → Exact
  | undefined => undefined
  | real x => open Classical in if x < 0 then undefined else real √x

/-- A test of two real numbers; it fails on what is undefined. -/
noncomputable def test (p : ℝ → ℝ → Prop) : Exact → Exact → Bool
  | real x, real y => open Classical in decide (p x y)
  | _, _ => false

noncomputable instance : Number Exact where
  add := map₂ (· + ·)
  sub := map₂ (· - ·)
  mul := map₂ (· * ·)
  div := quotient
  neg := map (- ·)
  ofScientific m s e := real (OfScientific.ofScientific m s e)
  ofNat n := real n
  pi := real Real.pi
  sqrt := root
  sin := map Real.sin
  cos := map Real.cos
  -- angles clamp what they take the arc cosine of, so it stays within the unit interval
  acos := map Real.arccos
  tanh := map Real.tanh
  exp := map Real.exp
  abs := map abs
  max := map₂ max
  min := map₂ min
  lt := test (· < ·)
  le := test (· ≤ ·)
  eq := test (· = ·)
  isFinite
    | undefined => false
    | real _ => true

/-- Drawn as real numbers are. -/
noncomputable instance : Uniform Exact where
  draw range word := map₂ (fun low high => Uniform.draw ⟨low, high⟩ word) range.low range.high
  drawable _ := true
  text _ := ""

def IsReal (a : Exact) : Prop := ∃ x, a = real x

/-- The real number; zero where there is none. -/
def toReal : Exact → ℝ
  | undefined => 0
  | real x => x

variable {a b : Exact} {x y : ℝ}

@[simp] theorem isReal_real : (real x).IsReal := ⟨x, rfl⟩

@[simp] theorem not_isReal_undefined : ¬ undefined.IsReal := fun ⟨_, h⟩ => nomatch h

theorem isReal_map {f : ℝ → ℝ} : (map f a).IsReal ↔ a.IsReal := by
  cases a <;> simp [map]

theorem isReal_map₂ {f : ℝ → ℝ → ℝ} : (map₂ f a b).IsReal ↔ a.IsReal ∧ b.IsReal := by
  cases a <;> cases b <;> simp [map₂]

@[simp] theorem isReal_add : (a + b).IsReal ↔ a.IsReal ∧ b.IsReal := isReal_map₂

@[simp] theorem isReal_sub : (a - b).IsReal ↔ a.IsReal ∧ b.IsReal := isReal_map₂

@[simp] theorem isReal_mul : (a * b).IsReal ↔ a.IsReal ∧ b.IsReal := isReal_map₂

/-- A root is defined where its radicand is and is not negative. -/
@[simp] theorem isReal_sqrt : (Number.sqrt a).IsReal ↔ ∃ x ≥ 0, a = real x := by
  change (root a).IsReal ↔ _
  cases a with
  | undefined => simp [root]
  | real x => by_cases hx : x < 0 <;> simp [root, hx, not_lt.mp]

@[simp] theorem isReal_max : (Number.max a b).IsReal ↔ a.IsReal ∧ b.IsReal := isReal_map₂

@[simp] theorem isReal_ofScientific {m : Nat} {s : Bool} {e : Nat} :
    (OfScientific.ofScientific m s e : Exact).IsReal :=
  ⟨_, rfl⟩

/-- A quotient is defined where its operands are and the divisor does not vanish. -/
@[simp] theorem isReal_div : (a / b).IsReal ↔ a.IsReal ∧ ∃ y ≠ 0, b = real y := by
  change (quotient a b).IsReal ↔ _
  cases a with
  | undefined => simp [quotient]
  | real x =>
      cases b with
      | undefined => simp [quotient]
      | real y =>
          by_cases hy : y = 0 <;> simp [quotient, hy]

@[simp] theorem real_add : real x + real y = real (x + y) := rfl

@[simp] theorem real_sub : real x - real y = real (x - y) := rfl

@[simp] theorem real_mul : real x * real y = real (x * y) := rfl

@[simp] theorem real_sqrt (hx : 0 ≤ x) : Number.sqrt (real x) = real √x := if_neg hx.not_gt

@[simp] theorem real_hypotenuse :
    Number.hypotenuse (real x) (real y) = real √(x * x + y * y) :=
  real_sqrt (add_nonneg (mul_self_nonneg x) (mul_self_nonneg y))

theorem sqrt_of_neg (hx : x < 0) : Number.sqrt (real x) = undefined := if_pos hx

@[simp] theorem real_div (hy : y ≠ 0) : real x / real y = real (x / y) := if_neg hy

/-- A literal is the real number that is written, as `norm_num` knows it. -/
@[simp] theorem real_ofScientific {m : Nat} {s : Bool} {e : Nat} :
    (OfScientific.ofScientific m s e : Exact) =
      real (@OfScientific.ofScientific ℝ NNRatCast.toOfScientific m s e) :=
  rfl

theorem literal_zero : (0.0 : Exact) = real 0 := by norm_num

theorem literal_one : (1.0 : Exact) = real 1 := by norm_num

theorem literal_two : (2.0 : Exact) = real 2 := by norm_num

@[simp] theorem real_lt : Number.lt (real x) (real y) = true ↔ x < y := by
  simp [Number.lt, test]

end Exact

end PlaneFigure
