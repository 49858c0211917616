import PlaneFigure.Proofs.Graph.Value

/-!
What the operations on formulas record: formulas of a greater graph, whose values are the operations
on the values. This holds however the operands share nodes, and for folded constants as well.
-/

namespace PlaneFigure

namespace Graph

variable {R : Type} {g h : Graph R} {f : Formula R}

/-- A formula recorded on top of a graph. -/
structure Grown (g : Graph R) (f : Formula R) (h : Graph R) : Prop where
  le : g ≤ h
  wellFormed : h.WellFormed
  root_lt : f.root < h.size

theorem Grown.refl (hg : g.WellFormed) (hf : f.root < g.size) : Grown g f g :=
  ⟨le_refl g, hg, hf⟩

theorem Grown.of_le {g₀ : Graph R} (hf : Grown g f h) (hle : g₀ ≤ g) : Grown g₀ f h :=
  ⟨hle.trans hf.le, hf.wellFormed, hf.root_lt⟩

theorem push_grown (hg : g.WellFormed) {node : Node R} (hnode : ∀ c ∈ node.children, c < g.size) :
    Grown g (push node g).1 (push node g).2 where
  le := le_push g node
  wellFormed := hg.push hnode
  root_lt := (push_size g node).symm ▸ Nat.lt_succ_self _

theorem const?_eq_some {c : R} (h : g.const? f = some c) : g.nodes[f.root]? = some (.const c) := by
  unfold const? at h
  split at h
  · cases h
    assumption
  · cases h

variable [Number R] {ρ : Nat → R} {op : UnaryOp} {bop : BinaryOp} {x l r : Formula R}

theorem const_value (g : Graph R) (c : R) :
    (push (.const c) g).2.value ρ (push (.const c) g).1 = c :=
  g.valueAt_push (by simp [Node.children])

theorem var_value (g : Graph R) (i : Nat) :
    (push (.var i) g).2.value ρ (push (.var i) g).1 = ρ i :=
  g.valueAt_push (by simp [Node.children])

theorem value_of_const? {c : R} (h : g.const? f = some c) : g.value ρ f = c :=
  g.valueAt_eq (const?_eq_some h) (by simp [Node.children])

/-- The value of an operation is the operation on the value. -/
theorem unary_value (hx : x.root < g.size) :
    (unary op x g).2.value ρ (unary op x g).1 = op.apply (g.value ρ x) := by
  unfold unary
  split
  · rw [const_value, value_of_const? ‹_›]
  · exact g.valueAt_push (by simpa [Node.children] using hx)

theorem binary_value (hl : l.root < g.size) (hr : r.root < g.size) :
    (binary bop l r g).2.value ρ (binary bop l r g).1 =
      bop.apply (g.value ρ l) (g.value ρ r) := by
  unfold binary
  split
  · rw [const_value, value_of_const? ‹_›, value_of_const? ‹_›]
  · exact g.valueAt_push (by simp [Node.children, hl, hr])

theorem unary_grown (hg : g.WellFormed) (hx : x.root < g.size) :
    Grown g (unary op x g).1 (unary op x g).2 := by
  unfold unary
  split
  · exact push_grown hg (by simp [Node.children])
  · exact push_grown hg (by simpa [Node.children] using hx)

theorem binary_grown (hg : g.WellFormed) (hl : l.root < g.size) (hr : r.root < g.size) :
    Grown g (binary bop l r g).1 (binary bop l r g).2 := by
  unfold binary
  split
  · exact push_grown hg (by simp [Node.children])
  · exact push_grown hg (by simp [Node.children, hl, hr])

end Graph

end PlaneFigure
