import PlaneFigure.Proofs.Graph.Value
import PlaneFigure.Proofs.Number.Exact

/-!
Formulas in exact arithmetic. Where no divisor vanishes and no radicand is negative, everything that
is recorded has a value.
-/

namespace PlaneFigure

open Exact

theorem UnaryOp.isReal_apply (op : UnaryOp) {a : Exact} (ha : a.IsReal)
    (hroot : op = .sqrt → ∀ x, a = real x → 0 ≤ x) : (op.apply a).IsReal := by
  obtain ⟨x, rfl⟩ := ha
  cases op with
  | sqrt => exact isReal_sqrt.mpr ⟨x, hroot rfl x rfl, rfl⟩
  | sigmoid =>
      have hpos : 1 + Real.exp (-x) ≠ 0 := by positivity
      change ((1.0 : Exact) / (1.0 + real (Real.exp (-x)))).IsReal
      rw [literal_one, real_add, real_div hpos]
      exact isReal_real
  | _ => exact isReal_real

theorem BinaryOp.isReal_apply (op : BinaryOp) {a b : Exact} (ha : a.IsReal) (hb : b.IsReal)
    (hdiv : op = .div → b ≠ real 0) : (op.apply a b).IsReal := by
  obtain ⟨x, rfl⟩ := ha
  obtain ⟨y, rfl⟩ := hb
  cases op with
  | div =>
      have hy : y ≠ 0 := fun hy => hdiv rfl (congrArg real hy)
      change (real x / real y).IsReal
      rw [real_div hy]
      exact isReal_real
  | _ => exact isReal_real

def Node.constant? {R : Type} : Node R → Option R
  | .const c => some c
  | _ => none

def Node.isQuotient {R : Type} : Node R → Bool
  | .binary .div _ _ => true
  | _ => false

def Node.isRoot {R : Type} : Node R → Bool
  | .unary .sqrt _ => true
  | _ => false

namespace Graph

/-- No divisor vanishes: that of no quotient, and none among the constants. What is folded into a
constant is undefined if its divisor was zero, or its radicand negative. -/
def Divisible (ρ : Nat → Exact) (g : Graph Exact) : Prop :=
  (∀ i l r : Nat, g.nodes[i]? = some (Node.binary .div l r) → g.valueAt ρ r ≠ real 0) ∧
    ∀ (i : Nat) (c : Exact), g.nodes[i]? = some (Node.const c) → c.IsReal

/-- No radicand is negative. Roots of constants are folded into constants. -/
def Extractable (ρ : Nat → Exact) (g : Graph Exact) : Prop :=
  ∀ (i x : Nat) (r : ℝ), g.nodes[i]? = some (.unary .sqrt x) → g.valueAt ρ x = real r → 0 ≤ r

/-- Nothing is divided where there are no quotients and all constants are defined. -/
theorem Divisible.of_all {g : Graph Exact} {ρ : Nat → Exact}
    (h : g.nodes.toList.all fun node => !node.isQuotient)
    (hconst : ∀ c ∈ g.nodes.toList.filterMap Node.constant?, c.IsReal) : g.Divisible ρ := by
  rw [List.all_eq_true] at h
  constructor
  · intro i l r hi
    cases h _ (Array.mem_toList_iff.mpr (Array.mem_of_getElem? hi))
  · intro i c hi
    exact hconst c (List.mem_filterMap.mpr
      ⟨_, Array.mem_toList_iff.mpr (Array.mem_of_getElem? hi), rfl⟩)

theorem Extractable.of_all {g : Graph Exact} {ρ : Nat → Exact}
    (h : g.nodes.toList.all fun node => !node.isRoot) : g.Extractable ρ := by
  rw [List.all_eq_true] at h
  intro i x r hi
  cases h _ (Array.mem_toList_iff.mpr (Array.mem_of_getElem? hi))

theorem Divisible.isReal {g : Graph Exact} {ρ : Nat → ℝ} (h : g.Divisible fun i => real (ρ i))
    (hroots : g.Extractable fun i => real (ρ i)) (hg : g.WellFormed) {i : Nat} (hi : i < g.size) :
    (g.valueAt (fun i => real (ρ i)) i).IsReal := by
  -- operands are recorded earlier, so that they have values leaves only the operation itself
  induction i using Nat.strong_induction_on with
  | h i ih =>
      have hnode : g.nodes[i]? = some g.nodes[i] := Array.getElem?_eq_getElem hi
      have hchild : ∀ c ∈ g.nodes[i].children, c < i := fun c hc => hg.child_lt hnode hc
      have hreal : ∀ c ∈ g.nodes[i].children, (g.valueAt (fun i => real (ρ i)) c).IsReal :=
        fun c hc => ih c (hchild c hc) ((hchild c hc).trans hi)
      rw [g.valueAt_eq hnode hchild]
      cases hn : g.nodes[i] with
      | const c => exact h.2 i c (hn ▸ hnode)
      | var j => exact isReal_real
      | unary op x =>
          refine op.isReal_apply (hreal x (by simp [hn, Node.children])) ?_
          rintro rfl
          exact fun r => hroots i x r (hn ▸ hnode)
      | binary op l r =>
          refine op.isReal_apply (hreal l (by simp [hn, Node.children]))
            (hreal r (by simp [hn, Node.children])) ?_
          rintro rfl
          exact h.1 i l r (hn ▸ hnode)

end Graph

end PlaneFigure
