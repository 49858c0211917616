import PlaneFigure.Proofs.Graph.Order
import PlaneFigure.Proofs.Graph.Value

/-!
Walks in parts. What lies on top of the stack is walked first and by itself, and it is walked alike
in a graph that records more. So the order below an operation begins with the order of its right
operand.
-/

namespace PlaneFigure.Graph

variable {R : Type} {g h : Graph R}

/-- A walk only adds to the order. -/
theorem walk_extends (g : Graph R) (stack : List (Nat × Bool)) (seen : Array Bool)
    (order : Array Nat) : ∃ more, (g.walk stack seen order).toList = order.toList ++ more := by
  fun_induction walk g stack seen order with
  | case1 seen order => exact ⟨[], by simp⟩
  | case2 i stack seen order ih =>
      obtain ⟨more, hmore⟩ := ih
      exact ⟨i :: more, by simp [hmore]⟩
  | case3 i stack seen order hi seen' next ih => exact ih
  | case4 i stack seen order hi ih => exact ih

/-- The upper part of the stack is walked as if nothing were below it. -/
theorem walk_append (g : Graph R) (stack rest : List (Nat × Bool)) (seen : Array Bool)
    (order : Array Nat) :
    ∃ seen', g.walk (stack ++ rest) seen order = g.walk rest seen' (g.walk stack seen order) := by
  fun_induction walk g stack seen order with
  | case1 seen order => exact ⟨seen, rfl⟩
  | case2 i stack seen order ih =>
      rw [List.cons_append, walk]
      exact ih
  | case3 i stack seen order hi seen' next ih =>
      rw [List.cons_append, walk, dif_pos hi]
      simpa [seen', next] using ih
  | case4 i stack seen order hi ih =>
      rw [List.cons_append, walk, dif_neg hi]
      exact ih

/-- A walk among the first `n` nodes depends on these nodes and their marks only. -/
theorem walk_congr (hg : g.WellFormed) {n : Nat} (hsame : ∀ i < n, h.children i = g.children i)
    (stack : List (Nat × Bool)) (seen : Array Bool) (order : Array Nat)
    (hstack : ∀ x ∈ stack, x.1 < n) :
    ∀ marks : Array Bool, (∀ i < n, marks[i]? = seen[i]?) →
      h.walk stack marks order = g.walk stack seen order := by
  fun_induction walk g stack seen order with
  | case1 seen order =>
      intro marks _
      rw [walk]
  | case2 i stack seen order ih =>
      intro marks hmarks
      rw [walk]
      exact ih (fun x hx => hstack x (.tail _ hx)) marks hmarks
  | case3 i stack seen order hi seen' next ih =>
      intro marks hmarks
      have hin : i < n := hstack _ (.head _)
      have hi' : marks[i]? = some false := (hmarks i hin).trans hi
      have hset : ∀ j < n, (marks.set i true (Array.getElem?_eq_some_iff.mp hi').1)[j]? =
          seen'[j]? := by
        intro j hj
        simp only [seen', Array.getElem?_set, hmarks j hj]
      have hnext : (h.children i).filter (fun c =>
          (marks.set i true (Array.getElem?_eq_some_iff.mp hi').1)[c]? = some false) = next := by
        rw [hsame i hin]
        refine List.filter_congr fun c hc => ?_
        rw [hset c (Nat.lt_trans (hg i c hc) hin)]
      rw [walk, dif_pos hi']
      simp only [hnext]
      refine ih (fun x hx => ?_) _ hset
      obtain hx | hx := List.mem_append.mp hx
      · obtain ⟨c, hc, rfl⟩ := List.mem_map.mp hx
        have hmem := List.mem_of_mem_filter (List.mem_reverse.mp hc)
        exact Nat.lt_trans (hg i c hmem) hin
      · obtain rfl | hx := List.mem_cons.mp hx
        · exact hin
        · exact hstack x (.tail _ hx)
  | case4 i stack seen order hi ih =>
      intro marks hmarks
      have hi' : ¬ marks[i]? = some false := hmarks i (hstack _ (.head _)) ▸ hi
      rw [walk, dif_neg hi']
      exact ih (fun x hx => hstack x (.tail _ hx)) marks hmarks

/-- The first turn of the walk: the root is opened. -/
theorem order_eq_walk (hg : g.WellFormed) (root : Nat) :
    ∃ seen : Array Bool, (∀ i < root, seen[i]? = some false) ∧
      g.order root =
        g.walk ((g.children root).reverse.map (·, false) ++ [(root, true)]) seen #[] := by
  have hroot : (Array.replicate (root + 1) false)[root]? = some false := by simp
  have hsize := (Array.getElem?_eq_some_iff.mp hroot).1
  have hseen : ∀ i < root, ((Array.replicate (root + 1) false).set root true)[i]? =
      some false := by
    intro i hi
    rw [Array.getElem?_set_ne hsize (Nat.ne_of_gt hi), Array.getElem?_replicate,
      if_pos (Nat.lt_succ_of_lt hi)]
  refine ⟨_, hseen, ?_⟩
  have hfilter : (g.children root).filter (fun c =>
      ((Array.replicate (root + 1) false).set root true)[c]? = some false) =
        g.children root :=
    List.filter_eq_self.mpr fun c hc => decide_eq_true (hseen c (hg root c hc))
  rw [order, walk, dif_pos hroot]
  simp only [hfilter]

theorem order_leaf (hg : g.WellFormed) {root : Nat} (hleaf : g.children root = []) :
    g.order root = #[root] := by
  obtain ⟨seen, -, horder⟩ := order_eq_walk hg root
  rw [horder, hleaf]
  simp [walk]

/-- Below an operation, the order is that of the right operand, then what only the left one reaches,
then the operation itself. -/
theorem order_binary (hgh : g ≤ h) (hg : g.WellFormed) (hh : h.WellFormed) {root l r : Nat}
    {op : BinaryOp} (hnode : h.nodes[root]? = some (.binary op l r)) (hr : r < g.size) :
    ∃ more, (h.order root).toList = (g.order r).toList ++ more ++ [root] := by
  have hrr : r < root := hh.child_lt hnode (by simp [Node.children])
  obtain ⟨seen, hseen, horder⟩ := order_eq_walk hh root
  have hchildren : h.children root = [l, r] := by simp [children, hnode, Node.children]
  -- the right operand is on top, and nothing below it has been begun
  have hright : h.walk [(r, false)] seen #[] = g.order r := by
    refine walk_congr (n := r + 1) hg (fun i hi => ?_) _ _ _ (by simp) seen fun i hi => ?_
    · rw [children, children, getElem?_of_le hgh (Nat.lt_of_lt_of_le hi hr)]
    · rw [hseen i (Nat.lt_of_lt_of_le hi hrr), Array.getElem?_replicate, if_pos hi]
  obtain ⟨seen₁, h₁⟩ := h.walk_append [(r, false)] [(l, false), (root, true)] seen #[]
  obtain ⟨seen₂, h₂⟩ := h.walk_append [(l, false)] [(root, true)] seen₁ (g.order r)
  obtain ⟨more, hmore⟩ := h.walk_extends [(l, false)] seen₁ (g.order r)
  refine ⟨more, ?_⟩
  rw [horder, hchildren]
  change (h.walk ([(r, false)] ++ [(l, false), (root, true)]) seen #[]).toList = _
  rw [h₁, hright]
  change (h.walk ([(l, false)] ++ [(root, true)]) seen₁ (g.order r)).toList = _
  rw [h₂, walk, walk, Array.toList_push, hmore]

end PlaneFigure.Graph
