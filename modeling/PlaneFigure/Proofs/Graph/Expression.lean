import PlaneFigure.Proofs.Graph.Value

/-!
Expressions: formulas without sharing. A formula unfolds to the tree that is reached from its root,
in which a shared node occurs as often as it is used.
-/

namespace PlaneFigure

variable {R : Type}

inductive Expression (R : Type)
  | const (c : R)
  | var (i : Nat)
  | unary (op : UnaryOp) (x : Expression R)
  | binary (op : BinaryOp) (l r : Expression R)

namespace Expression

/-- The value by structural recursion. -/
def value [Number R] (ρ : Nat → R) : Expression R → R
  | const c => c
  | var i => ρ i
  | unary op x => op.apply (x.value ρ)
  | binary op l r => op.apply (l.value ρ) (r.value ρ)

/-- Whether variable `k` occurs. -/
def Mentions (k : Nat) : Expression R → Prop
  | const _ => False
  | var i => i = k
  | unary _ x => x.Mentions k
  | binary _ l r => l.Mentions k ∨ r.Mentions k

/-- What holds of an expression holds of its operands. -/
structure Hereditary (p : Expression R → Prop) : Prop where
  operand {op : UnaryOp} {x : Expression R} : p (.unary op x) → p x
  operands {op : BinaryOp} {l r : Expression R} : p (.binary op l r) → p l ∧ p r

end Expression

/-- The expression of a node, from those of its children. -/
def Node.expression (e : Nat → Expression R) : Node R → Expression R
  | .const c => .const c
  | .var i => .var i
  | .unary op x => .unary op (e x)
  | .binary op l r => .binary op (e l) (e r)

namespace Graph

variable [Number R] {g : Graph R} {ρ : Nat → R}

/-- The expression below node `i`. Only children that are earlier entries are followed, which all
children are in a well-formed graph. -/
def unfold (g : Graph R) (i : Nat) : Expression R :=
  match g.nodes[i]? with
  | none => .const 0.0
  | some node => node.expression fun c => if c < i then g.unfold c else .const 0.0

theorem WellFormed.unfold_eq (hg : g.WellFormed) {i : Nat} {node : Node R}
    (hi : g.nodes[i]? = some node) : g.unfold i = node.expression g.unfold := by
  have hc : ∀ c ∈ node.children, c < i := fun _ => hg.child_lt hi
  rw [unfold, hi]
  cases node <;> simp_all [Node.expression, Node.children]

/-- Recording more changes no expression. -/
theorem unfold_of_le {h : Graph R} (hgh : g ≤ h) {i : Nat} (hi : i < g.size) :
    h.unfold i = g.unfold i := by
  induction i using Nat.strongRecOn with
  | ind i ih =>
      have hchild : (fun c => if c < i then h.unfold c else .const 0.0) =
          fun c => if c < i then g.unfold c else .const 0.0 := by
        funext c
        split
        · exact ih c ‹_› (Nat.lt_trans ‹_› hi)
        · rfl
      rw [unfold, getElem?_of_le hgh hi, hchild, ← unfold]

/-- A formula has the value of the expression it unfolds to. -/
theorem WellFormed.valueAt_eq_unfold (hg : g.WellFormed) (i : Nat) (hi : i < g.size) :
    g.valueAt ρ i = (g.unfold i).value ρ := by
  induction i using Nat.strongRecOn with
  | ind i ih =>
      have hnode := Array.getElem?_eq_getElem hi
      rw [hg.valueAt_eq hnode, hg.unfold_eq hnode]
      have hc : ∀ c ∈ g.nodes[i].children, g.valueAt ρ c = (g.unfold c).value ρ := fun c hc =>
        ih c (hg.child_lt hnode hc) (Nat.lt_trans (hg.child_lt hnode hc) hi)
      rw [Node.value_congr hc]
      cases g.nodes[i] <;> rfl

end Graph

end PlaneFigure
