import PlaneFigure.Proofs.Number.Real
import PlaneFigure.Proofs.Graph.Gradient
import PlaneFigure.Proofs.Graph.Program

/-!
Real numbers with their derivatives by all variables, as scalars. A formula denotes its value with
the derivatives that structural recursion finds, and the backward sweep finds the same ones; the laws
of exact arithmetic hold of derivatives as well.
-/

namespace PlaneFigure

/-- A value, and its derivative by each variable. -/
structure Tangent where
  value : ℝ
  slope : Nat → ℝ

noncomputable instance : Scalar Tangent ℝ Unit where
  const c := pure ⟨c, fun _ => 0⟩
  free i x := pure ⟨x, fun k => if i = k then 1 else 0⟩
  unary op x := pure ⟨op.apply x.value, fun k => op.slope x.value * x.slope k⟩
  binary op l r := pure ⟨op.apply l.value r.value,
    fun k => op.forward l.value r.value (l.slope k) (r.slope k)⟩
  simplify _ x := pure x
  read _ _ x := x.value

namespace Tangent

open Scalar (outcome)

theorem ext {x y : Tangent} (hvalue : x.value = y.value) (hslope : ∀ k, x.slope k = y.slope k) :
    x = y := by
  obtain ⟨v, d⟩ := x
  obtain rfl : v = y.value := hvalue
  obtain rfl : d = y.slope := funext hslope
  rfl

theorem denote_eq (ρ : Nat → ℝ) (e : Expression ℝ) :
    (e.denote ρ : Tangent) = ⟨e.value ρ, fun k => e.derivative ρ k⟩ := by
  induction e with
  | const c => rfl
  | var i => rfl
  | unary op x ih =>
      rw [Expression.denote, ih]
      rfl
  | binary op l r ihl ihr =>
      rw [Expression.denote, ihl, ihr]
      rfl

theorem plain : Scalar.Plain Tangent where
  unary_const op c := ext rfl fun k => mul_zero _
  binary_const op c d := ext rfl fun k => by
    change op.forward c d 0 0 = 0
    cases op <;> simp [BinaryOp.forward]
  simplify_self how x := rfl

theorem symmetric : Scalar.Symmetric Tangent where
  neg_neg x := by
    refine ext (neg_neg x.value) fun k => ?_
    change (-1 : ℝ) * (-1 * x.slope k) = x.slope k
    ring
  sin_neg x := by
    refine ext (Real.sin_neg x.value) fun k => ?_
    change Real.cos (-x.value) * (-1 * x.slope k) = -1 * (Real.cos x.value * x.slope k)
    rw [Real.cos_neg]
    ring
  cos_neg x := by
    refine ext (Real.cos_neg x.value) fun k => ?_
    change -Real.sin (-x.value) * (-1 * x.slope k) = -Real.sin x.value * x.slope k
    rw [Real.sin_neg]
    ring

theorem eq_zero {c : ℝ} (h : Number.eq c 0.0) : c = 0 := by
  rw [Number.real_eq.mp h]
  norm_num

theorem eq_one {c : ℝ} (h : Number.eq c 1.0) : c = 1 := by
  rw [Number.real_eq.mp h]
  norm_num

theorem neutral : Scalar.Neutral Tangent where
  add_zero x c hc := by
    obtain rfl := eq_zero hc
    exact ext (add_zero x.value) fun k => add_zero (x.slope k)
  zero_add x c hc := by
    obtain rfl := eq_zero hc
    exact ext (zero_add x.value) fun k => zero_add (x.slope k)
  sub_zero x c hc := by
    obtain rfl := eq_zero hc
    exact ext (sub_zero x.value) fun k => sub_zero (x.slope k)
  mul_one x c hc := by
    obtain rfl := eq_one hc
    refine ext (mul_one x.value) fun k => ?_
    change x.slope k * 1 + x.value * 0 = x.slope k
    ring
  one_mul x c hc := by
    obtain rfl := eq_one hc
    refine ext (one_mul x.value) fun k => ?_
    change 0 * x.value + 1 * x.slope k = x.slope k
    ring
  div_one x c hc := by
    obtain rfl := eq_one hc
    refine ext (div_one x.value) fun k => ?_
    change (x.slope k * 1 - x.value * 0) / 1 ^ 2 = x.slope k
    ring

/-- Derivatives obey what simplification relies on. -/
theorem obeys (how : RuleSet) : Scalar.Obeys Tangent how := by
  cases how with
  | trig => exact symmetric
  | all => exact ⟨symmetric, neutral⟩

end Tangent

namespace Graph

variable {g : Graph ℝ} {f : Formula ℝ}

/-- The entries of a gradient are the derivatives that the formula denotes. -/
theorem gradient_eq_denote (hg : g.WellFormed) (hf : f.root < g.size) (ρ : Nat → ℝ) (n : Nat) :
    g.gradient ρ f n = ((g.denote ρ f : Tangent).value,
      Array.ofFn fun i : Fin n => (g.denote ρ f : Tangent).slope i) := by
  rw [denote, Tangent.denote_eq]
  refine Prod.ext (hg.valueAt_eq_unfold f.root hf) (Array.ext ?_ fun k hk hn => ?_)
  · rw [gradient, ← Array.foldr_toList, sweep_size, Array.size_replicate, Array.size_ofFn]
  · rw [Array.size_ofFn] at hn
    have hsweep := sweep_gradient (k := k) (ρ := ρ) hg hf (order_childrenFirst hg f.root)
      (fun i hi => Nat.lt_succ_of_le (le_of_mem_order hg hi))
      ⟨(Array.replicate (f.root + 1) 0.0).setIfInBounds f.root 1.0, Array.replicate n 0.0⟩
      (by simp) (by simpa using hn)
    rw [start_ahead (root_mem_order hg f.root), Array.foldr_toList] at hsweep
    have hentry : (g.gradient ρ f n).2[k] = (g.gradient ρ f n).2.getD k 0 := by
      rw [Array.getD_eq_getD_getElem?, Array.getElem?_eq_getElem hk, Option.getD_some]
    have hzero : (Array.replicate n (0.0 : ℝ)).getD k 0 = 0 := by
      rw [Array.getD_eq_getD_getElem?, Array.getElem?_replicate, if_pos hn]
      norm_num
    rw [hentry, Array.getElem_ofFn]
    exact hsweep.trans (by rw [hzero, zero_add])

end Graph

end PlaneFigure
