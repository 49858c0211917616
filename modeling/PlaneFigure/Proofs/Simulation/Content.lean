import PlaneFigure.Proofs.Graph.Reach
import PlaneFigure.Proofs.Simulation.World

/-!
Generic code run on formulas, and on what is known of them: whether they reach a variable, and which
operations they contain. An operation contains what its operands contain, so the second run tells
what lies below the results of the first. It does not tell what simplification leaves of them.
-/

namespace PlaneFigure

/-- Whether a formula is known to reach a variable, and operations it is known to contain. -/
structure Content (R : Type) where
  live : Prop
  operations : Set Nat

variable {R : Type} [Number R]

instance : Scalar (Content R) R Unit where
  const _ := pure ⟨False, ∅⟩
  free _ _ := pure ⟨True, ∅⟩
  unary _ x := pure x
  binary _ x y := pure ⟨x.live ∨ y.live, x.operations ∪ y.operations⟩
  simplify _ x := pure x
  read _ _ _ := 0.0

instance : Mirror R (Formula R) (Content R) where
  Stands w f c := f.root < w.graph.size ∧ (c.live → w.graph.Live f.root) ∧
    ∀ j ∈ c.operations, w.graph.Contains f.root j
  mono hle hs := ⟨Nat.lt_of_lt_of_le hs.1 (Graph.size_le_of_le hle.1), fun h => (hs.2.1 h).of_le hle.1,
    fun j hj => (hs.2.2 j hj).of_le hle.1⟩

instance : ScalarMirror R (Content R) where
  root_lt h := h.out.1
  const c _ hw := ⟨hw ▸ (Graph.push_size ..).symm ▸ Nat.lt_succ_self _, False.elim, nofun⟩
  free {w _} i _ _ hw _ := by
    have hnode := Graph.getElem?_push_size w.graph (.var i)
    refine ⟨hw ▸ (Graph.push_size ..).symm ▸ Nat.lt_succ_self _, fun _ => ?_, nofun⟩
    rw [hw]
    exact ⟨_, i, .refl _ _, hnode⟩
  unary {w _ _ _} op h hle hw := by
    obtain ⟨hy, hlive, hcontains⟩ := h.out
    refine ⟨hw ▸ (Graph.unary_grown w.wellFormed hy).root_lt, fun h => ?_, fun j hj => ?_⟩ <;> rw [hw]
    · exact Graph.unary_live (hlive h)
    · exact Graph.unary_contains (hcontains j hj)
  binary {w _ _ _ _ _} op h h' hle hw := by
    obtain ⟨hy, hlive, hcontains⟩ := h.out
    obtain ⟨hz, hlive', hcontains'⟩ := h'.out
    refine ⟨hw ▸ (Graph.binary_grown w.wellFormed hy hz).root_lt, fun h => ?_, fun j hj => ?_⟩ <;>
      rw [hw]
    · exact Graph.binary_live (h.imp hlive hlive')
    · exact Graph.binary_contains (hj.imp (hcontains j) (hcontains' j))

/-- Nothing is known of a formula but that it is recorded. -/
def Content.unknown : Content R := ⟨False, ∅⟩

omit [Number R] in
theorem World.stands_unknown {w : World R} {f : Formula R} (hf : f.root < w.graph.size) :
    Stands w f (Content.unknown : Content R) :=
  ⟨hf, False.elim, nofun⟩

end PlaneFigure
