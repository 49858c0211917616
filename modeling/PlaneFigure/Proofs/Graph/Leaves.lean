import PlaneFigure.Proofs.Graph.Simplify

/-!
The variables that a graph records, in the order of their nodes. Operations and simplification record
none.
-/

namespace PlaneFigure

def Node.variable? {R : Type} : Node R → Option Nat
  | .var i => some i
  | _ => none

namespace Graph

variable {R : Type}

/-- The numbers of the variables that are recorded. -/
def leaves (g : Graph R) : List Nat := g.nodes.toList.filterMap Node.variable?

theorem leaves_push (node : Node R) (g : Graph R) :
    (push node g).2.leaves = g.leaves ++ node.variable?.toList := by
  change ((g.nodes.push node).toList.filterMap Node.variable?) = _
  rw [Array.toList_push, List.filterMap_append, leaves]
  cases node <;> rfl

theorem leaves_push_of_none {node : Node R} (h : node.variable? = none) (g : Graph R) :
    (push node g).2.leaves = g.leaves := by
  rw [leaves_push, h]
  exact List.append_nil _

variable [Number R]

theorem leaves_unary (op : UnaryOp) (x : Formula R) (g : Graph R) :
    (unary op x g).2.leaves = g.leaves := by
  unfold unary
  split <;> exact leaves_push_of_none rfl g

theorem leaves_binary (op : BinaryOp) (l r : Formula R) (g : Graph R) :
    (binary op l r g).2.leaves = g.leaves := by
  unfold binary
  split <;> exact leaves_push_of_none rfl g

theorem leaves_simplifyUnary (op : UnaryOp) (x : Formula R) (g : Graph R) :
    (simplifyUnary op x g).2.leaves = g.leaves := by
  unfold simplifyUnary
  split
  · rfl
  · exact (leaves_unary ..).trans (leaves_unary ..)
  · exact leaves_unary ..
  · exact leaves_unary ..

theorem leaves_simplifyBinary (how : RuleSet) (op : BinaryOp) (l r : Formula R) (g : Graph R) :
    (simplifyBinary how op l r g).2.leaves = g.leaves := by
  obtain heq | heq | heq := simplifyBinary_cases how op l r g <;> rw [heq]
  exact leaves_binary ..

theorem leaves_simplifyStep (how : RuleSet) (done : Array Nat) (g : Graph R) (i : Nat) :
    (simplifyStep how (done, g) i).2.leaves = g.leaves := by
  change (simplifyNode how done i g).2.leaves = g.leaves
  unfold simplifyNode
  split
  · exact leaves_simplifyUnary ..
  · exact leaves_simplifyBinary ..
  · rfl

theorem leaves_simplify (how : RuleSet) (f : Formula R) (g : Graph R) :
    (simplify how f g).2.leaves = g.leaves := by
  have hrun : ∀ (l : List Nat) (done : Array Nat) (h : Graph R),
      (l.foldl (simplifyStep how) (done, h)).2.leaves = h.leaves := by
    intro l
    induction l with
    | nil => exact fun _ _ => rfl
    | cons i l ih => exact fun done h => (ih _ _).trans (leaves_simplifyStep how done h i)
  change ((g.order f.root).foldl (simplifyStep how) (Array.range (f.root + 1), g)).2.leaves = _
  rw [← Array.foldl_toList]
  exact hrun ..

end Graph

end PlaneFigure
