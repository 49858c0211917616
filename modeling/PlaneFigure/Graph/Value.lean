import PlaneFigure.Graph.Basic

/-!
Values of formulas. The nodes of a graph are evaluated in one pass over the table, each from the
values of its children, so shared nodes are evaluated once. The pass ends at the root of the
formula, because no later entry is below it.
-/

namespace PlaneFigure

variable {R : Type} [Number R]

/-- The value of a node from the values `ρ` of the variables and `v` of the other nodes. -/
@[inline] def Node.value (ρ : Nat → R) (v : Nat → R) : Node R → R
  | .const c => c
  | .var i => ρ i
  | .unary op x => op.apply (v x)
  | .binary op l r => op.apply (v l) (v r)

namespace Graph

/-- The values of the first `n` nodes. -/
@[specialize]
def values (g : Graph R) (ρ : Nat → R) (n : Nat) : Array R :=
  g.nodes.foldl (fun vs node => vs.push (node.value ρ fun i => vs.getD i 0.0)) #[] 0 n

/-- The value of a formula when variable `i` has the value `ρ i`. -/
@[specialize]
def value (g : Graph R) (ρ : Nat → R) (f : Formula R) : R :=
  (g.values ρ (f.root + 1)).getD f.root 0.0

end Graph

end PlaneFigure
