import PlaneFigure.Proofs.Graph.Folding
import PlaneFigure.Proofs.Simulation.World

/-!
Generic code run on formulas and on the expressions they unfold to. Expressions need no memory, so
the second run knows nothing of what else is recorded, and simplification is among its operations.
-/

namespace PlaneFigure

variable {R : Type} [Number R]

/-- A formula stands for the expression it unfolds to. -/
instance : Mirror R (Formula R) (Expression R) where
  Stands w f e := f.root < w.graph.size ∧ w.graph.unfold f.root = e
  mono hle hs := ⟨Nat.lt_of_lt_of_le hs.1 (Graph.size_le_of_le hle.1),
    (Graph.unfold_of_le hle.1 hs.1).trans hs.2⟩

instance : ScalarMirror R (Expression R) where
  root_lt h := h.out.1
  const {w _} c _ hw := ⟨hw ▸ (Graph.push_size ..).symm ▸ Nat.lt_succ_self _,
    hw ▸ Graph.unfold_push w.wellFormed (.const c) (by simp [Node.children])⟩
  free {w _} i _ _ hw _ := ⟨hw ▸ (Graph.push_size ..).symm ▸ Nat.lt_succ_self _,
    hw ▸ Graph.unfold_push w.wellFormed (.var i) (by simp [Node.children])⟩
  unary {w _ _ _} op h _ hw := by
    obtain ⟨hy, rfl⟩ := h.out
    exact ⟨hw ▸ (Graph.unary_grown w.wellFormed hy).root_lt,
      hw ▸ Graph.unary_unfold w.wellFormed op hy⟩
  binary {w _ _ _ _ _} op h h' _ hw := by
    obtain ⟨hy, rfl⟩ := h.out
    obtain ⟨hz, rfl⟩ := h'.out
    exact ⟨hw ▸ (Graph.binary_grown w.wellFormed hy hz).root_lt,
      hw ▸ Graph.binary_unfold w.wellFormed op hy hz⟩

instance {w : World R} : Simplifies (Expression R) w where
  out {w₁ _ _ _} _ h _ hgraph := by
    obtain ⟨hy, rfl⟩ := h.out
    exact ⟨hgraph ▸ (Graph.simplify_grown .trig w₁.wellFormed hy).root_lt,
      hgraph ▸ Graph.simplify_unfold w₁.wellFormed hy⟩

end PlaneFigure
