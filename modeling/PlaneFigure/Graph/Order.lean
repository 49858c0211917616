import PlaneFigure.Graph.Basic

/-!
The nodes a formula reaches, each once and after its children. The order is that of a depth-first
walk which finishes a right child before its left sibling is begun; sums of gradient
contributions are accumulated in it, so it is part of what a gradient is.
-/

namespace PlaneFigure.Graph

variable {R : Type}

/-- Marking a node leaves fewer unmarked. -/
theorem count_false_set {seen : Array Bool} {i : Nat} (h : seen[i]? = some false) :
    (seen.set i true (Array.getElem?_eq_some_iff.mp h).1).count false < seen.count false := by
  obtain ⟨hi, hv⟩ := Array.getElem?_eq_some_iff.mp h
  have hpos : 0 < seen.count false := Array.count_pos_iff.mpr (hv ▸ Array.getElem_mem hi)
  rw [Array.count_set, hv]
  exact Nat.sub_lt hpos Nat.one_pos

/-- The walk. An entry of the stack is a node and whether its children are already on the stack;
`seen` marks the nodes that were begun and `order` holds those that are finished. -/
def walk (g : Graph R) : List (Nat × Bool) → Array Bool → Array Nat → Array Nat
  | [], _, order => order
  | (i, true) :: stack, seen, order => walk g stack seen (order.push i)
  | (i, false) :: stack, seen, order =>
    if h : seen[i]? = some false then
      let seen' := seen.set i true (Array.getElem?_eq_some_iff.mp h).1
      let next := (g.children i).filter fun c => seen'[c]? = some false
      walk g (next.reverse.map (·, false) ++ (i, true) :: stack) seen' order
    else walk g stack seen order
termination_by stack seen _ => (seen.count false, stack.length)
decreasing_by
  · exact .right _ (Nat.lt_succ_self _)
  · exact .left _ _ (count_false_set h)
  · exact .right _ (Nat.lt_succ_self _)

/-- The nodes reachable from `root`, children before parents, the root last. No entry after the
root is reachable. -/
def order (g : Graph R) (root : Nat) : Array Nat :=
  walk g [(root, false)] (Array.replicate (root + 1) false) #[]

/-- The number of distinct nodes that a formula reaches. -/
def nodeCount (g : Graph R) (f : Formula R) : Nat := (g.order f.root).size

end PlaneFigure.Graph
