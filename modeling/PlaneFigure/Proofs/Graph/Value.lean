import Mathlib.Order.Basic
import PlaneFigure.Graph.Value

/-!
What a formula is worth. The value of a node is computed from the values of its children, and
recording more nodes changes no value.
-/

namespace PlaneFigure.Graph

variable {R : Type}

/-- `g ≤ h` if `h` records the nodes of `g` at the same places, and maybe more. -/
instance : Preorder (Graph R) where
  le g h := g.nodes.toList <+: h.nodes.toList
  le_refl g := List.prefix_refl _
  le_trans _ _ _ := List.IsPrefix.trans

theorem size_le_of_le {g h : Graph R} (hgh : g ≤ h) : g.size ≤ h.size :=
  hgh.length_le

theorem getElem?_of_le {g h : Graph R} (hgh : g ≤ h) {i : Nat} (hi : i < g.size) :
    h.nodes[i]? = g.nodes[i]? := by
  obtain ⟨more, hmore⟩ := hgh
  rw [← Array.getElem?_toList, ← Array.getElem?_toList, ← hmore]
  exact List.getElem?_append_left hi

theorem le_push (g : Graph R) (node : Node R) : g ≤ (push node g).2 :=
  ⟨[node], by simp [push]⟩

@[simp] theorem push_size (g : Graph R) (node : Node R) : (push node g).2.size = g.size + 1 :=
  Array.size_push _

theorem getElem?_push_size (g : Graph R) (node : Node R) :
    (push node g).2.nodes[g.size]? = some node :=
  Array.getElem?_push_size

theorem empty_wellFormed : (empty : Graph R).WellFormed := by
  simp [WellFormed, children, empty]

theorem WellFormed.child_lt {g : Graph R} (hg : g.WellFormed) {i c : Nat} {node : Node R}
    (hi : g.nodes[i]? = some node) (hc : c ∈ node.children) : c < i := by
  apply hg i c
  simpa [children, hi] using hc

/-- A child in a graph that grew by a node was a child before, or it is a child of that node. -/
theorem mem_children_push {g : Graph R} {node : Node R} {i c : Nat}
    (hc : c ∈ (push node g).2.children i) :
    c ∈ g.children i ∨ i = g.size ∧ c ∈ node.children := by
  obtain hlt | rfl | hgt := Nat.lt_trichotomy i g.size
  · rw [children, getElem?_of_le (le_push g node) hlt] at hc
    exact .inl hc
  · rw [children, getElem?_push_size] at hc
    exact .inr ⟨rfl, hc⟩
  · have hout : (push node g).2.nodes[i]? = none :=
      Array.getElem?_eq_none ((push_size g node).trans_le hgt)
    simp [children, hout] at hc

theorem WellFormed.push {g : Graph R} (hg : g.WellFormed) {node : Node R}
    (hnode : ∀ c ∈ node.children, c < g.size) : (Graph.push node g).2.WellFormed := by
  intro i c hc
  obtain hold | ⟨rfl, hnew⟩ := mem_children_push hc
  · exact hg i c hold
  · exact hnode c hnew

variable [Number R] {ρ : Nat → R}

theorem Node.value_congr {node : Node R} {v w : Nat → R} (h : ∀ c ∈ node.children, v c = w c) :
    node.value ρ v = node.value ρ w := by
  cases node <;> simp_all [Node.value, Node.children]

/-- The value of node `i`. -/
abbrev valueAt (g : Graph R) (ρ : Nat → R) (i : Nat) : R := g.value ρ ⟨i⟩

@[simp] theorem values_zero (g : Graph R) : g.values ρ 0 = #[] := by
  rw [values, Array.foldl_eq_foldl_extract]
  simp only [Array.extract_zero, Array.foldl_empty]

/-- The pass takes one more node. -/
theorem values_succ (g : Graph R) {n : Nat} {node : Node R} (hn : g.nodes[n]? = some node) :
    g.values ρ (n + 1) =
      (g.values ρ n).push (node.value ρ fun c => (g.values ρ n).getD c 0.0) := by
  obtain ⟨hlt, rfl⟩ := Array.getElem?_eq_some_iff.mp hn
  have hext : g.nodes.extract 0 (n + 1) = (g.nodes.extract 0 n).push g.nodes[n] := by
    rw [Array.push_extract_getElem hlt, Nat.zero_min]
  rw [values, Array.foldl_eq_foldl_extract, hext, Array.foldl_push,
    ← Array.foldl_eq_foldl_extract]
  rfl

theorem values_size (g : Graph R) {n : Nat} (hn : n ≤ g.size) : (g.values ρ n).size = n := by
  induction n with
  | zero => rw [values_zero, Array.size_empty]
  | succ n ih =>
      rw [g.values_succ (Array.getElem?_eq_getElem hn), Array.size_push,
        ih (Nat.le_of_succ_le hn)]

theorem values_getElem? (g : Graph R) {i n : Nat} (hn : n ≤ g.size) (hi : i < n) :
    (g.values ρ n)[i]? = some (g.valueAt ρ i) := by
  induction n with
  | zero => cases hi
  | succ n ih =>
      obtain hlt | rfl := Nat.lt_or_eq_of_le (Nat.le_of_lt_succ hi)
      · have hsize := g.values_size (ρ := ρ) (Nat.le_of_succ_le hn)
        rw [g.values_succ (Array.getElem?_eq_getElem hn),
          Array.getElem?_push_lt (hsize.symm ▸ hlt), ← ih (Nat.le_of_succ_le hn) hlt,
          Array.getElem?_eq_getElem]
      · -- the value of node `i` is by definition the last entry of the pass that ends with it
        have hsize := g.values_size (ρ := ρ) hn
        rw [valueAt, value, Array.getD_eq_getD_getElem?,
          Array.getElem?_eq_getElem (hsize.symm ▸ Nat.lt_succ_self i), Option.getD_some]

/-- A node over earlier ones has the value that its children give it. -/
theorem valueAt_eq (g : Graph R) {i : Nat} {node : Node R} (hi : g.nodes[i]? = some node)
    (hc : ∀ c ∈ node.children, c < i) : g.valueAt ρ i = node.value ρ (g.valueAt ρ) := by
  have hlt : i < g.size := (Array.getElem?_eq_some_iff.mp hi).1
  have hsize : (g.values ρ i).size = i := g.values_size (Nat.le_of_lt hlt)
  have hval := g.values_getElem? (ρ := ρ) hlt (Nat.lt_succ_self i)
  rw [g.values_succ hi, Array.getElem?_push, if_pos hsize.symm] at hval
  rw [← Option.some_inj.mp hval]
  apply Node.value_congr
  intro c hcmem
  rw [Array.getD_eq_getD_getElem?, g.values_getElem? (Nat.le_of_lt hlt) (hc c hcmem),
    Option.getD_some]

theorem WellFormed.valueAt_eq {g : Graph R} (hg : g.WellFormed) {i : Nat} {node : Node R}
    (hi : g.nodes[i]? = some node) : g.valueAt ρ i = node.value ρ (g.valueAt ρ) :=
  g.valueAt_eq hi fun _ => hg.child_lt hi

theorem values_of_le {g h : Graph R} (hgh : g ≤ h) {n : Nat} (hn : n ≤ g.size) :
    h.values ρ n = g.values ρ n := by
  induction n with
  | zero => rw [values_zero, values_zero]
  | succ n ih =>
      have hnode := Array.getElem?_eq_getElem hn
      rw [g.values_succ hnode, h.values_succ ((getElem?_of_le hgh hn).trans hnode),
        ih (Nat.le_of_succ_le hn)]

/-- Recording more changes no value. -/
theorem valueAt_of_le {g h : Graph R} (hgh : g ≤ h) {i : Nat} (hi : i < g.size) :
    h.valueAt ρ i = g.valueAt ρ i := by
  rw [valueAt, valueAt, value, value, values_of_le hgh hi]

theorem valueAt_push (g : Graph R) {node : Node R} (hnode : ∀ c ∈ node.children, c < g.size) :
    (push node g).2.valueAt ρ g.size = node.value ρ (g.valueAt ρ) := by
  rw [valueAt_eq _ (getElem?_push_size g node) hnode]
  exact Node.value_congr fun c hc => valueAt_of_le (le_push g node) (hnode c hc)

end PlaneFigure.Graph
