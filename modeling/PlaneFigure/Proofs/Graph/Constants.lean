import PlaneFigure.Proofs.Graph.NormalForm
import PlaneFigure.Proofs.Graph.Program
import PlaneFigure.Proofs.Graph.Reach

/-!
Constants are folded completely. A step on folded formulas records a folded formula, also where
simplification drops an operand, so no operation on constants alone is ever recorded. Below what is
no constant there is then always something that is none, down to a variable.
-/

namespace PlaneFigure

variable {R : Type} [Number R]

namespace StraightLine

open Scalar (outcome)

theorem foldlM_folded {x : Expression R} {xs : List (Expression R)} (hx : x.Folded)
    (hxs : ∀ y ∈ xs, y.Folded) : (outcome (xs.foldlM Scalar.add x)).Folded := by
  induction xs generalizing x with
  | nil => exact hx
  | cons y xs ih =>
      obtain ⟨hy, hxs⟩ := List.forall_mem_cons.mp hxs
      have hsum : (Expression.applyBinary .add x y).Folded := Expression.applyBinary_folded hx hy
      exact ih hsum hxs

/-- A step on folded expressions gives a folded expression. -/
theorem Step.run_folded {s : Step R (Expression R)} (hs : ∀ e ∈ s.operands, e.Folded) :
    (outcome s.run).Folded := by
  cases s with
  | const c => trivial
  | unary op x => exact Expression.applyUnary_folded (hs x (.head _))
  | binary op x y =>
      exact Expression.applyBinary_folded (hs x (.head _)) (hs y (.tail _ (.head _)))
  | binaryConst op x c =>
      have hc : (Expression.const c).Folded := trivial
      exact Expression.applyBinary_folded (hs x (.head _)) hc
  | square x => exact Expression.applyBinary_folded (hs x (.head _)) (hs x (.head _))
  | sum xs =>
      cases xs with
      | nil => trivial
      | cons x xs => exact foldlM_folded (hs x (.head _)) fun y hy => hs y (.tail _ hy)
  -- whatever was simplified, the result is normal
  | simplify how x => exact (Expression.simplify_normal how x).folded

end StraightLine

namespace Graph

open StraightLine

variable {g : Graph R} {fs : List (Formula R)} {f : Formula R} {i : Nat}

/-! ### What is recorded is folded -/

/-- A step on folded formulas records a folded formula. -/
theorem step_folded {s : Step R (Formula R)} (hg : g.WellFormed)
    (hs : ∀ f ∈ s.operands, f.root < g.size)
    (hfolded : ∀ f ∈ s.operands, (g.unfold f.root).Folded) :
    ((s.run g).2.unfold (s.run g).1.root).Folded := by
  rw [step_unfold hg hs]
  refine Step.run_folded ?_
  rw [Step.operands_map]
  exact List.forall_mem_map.mpr hfolded

/-- What is recorded is folded. -/
theorem Recorded.folded (h : Recorded g fs) : ∀ f ∈ fs, (g.unfold f.root).Folded := by
  induction h with
  | start => exact nofun
  | @var g fs h k ih =>
      obtain ⟨hg, hfs⟩ := h.wellFormed
      refine List.forall_mem_cons.mpr ⟨?_, fun f hf => ?_⟩
      · rw [unfold_push hg (.var k) (by simp [Node.children])]
        trivial
      · rw [unfold_of_le (le_push g _) (hfs f hf)]
        exact ih f hf
  | @step g fs h s hs ih =>
      obtain ⟨hg, hfs⟩ := h.wellFormed
      have hinside : ∀ f ∈ s.operands, f.root < g.size := fun f hf => hfs f (hs f hf)
      refine List.forall_mem_cons.mpr
        ⟨step_folded hg hinside fun f hf => ih f (hs f hf), fun f hf => ?_⟩
      rw [unfold_of_le (step_grown hg hinside).le (hfs f hf)]
      exact ih f hf

/-! ### Nodes of folded formulas -/

/-- A folded operation has an operand that is no constant. -/
theorem exists_child_of_folded (hg : g.WellFormed) (hfolded : (g.unfold i).Folded)
    (hi : g.children i ≠ []) : ∃ c ∈ g.children i, g.const? ⟨c⟩ = none := by
  cases hnode : g.nodes[i]? with
  | none => simp [children, hnode] at hi
  | some node =>
      rw [hg.unfold_eq hnode] at hfolded
      have hlt : i < g.size := (Array.getElem?_eq_some_iff.mp hnode).1
      have hchild : ∀ c ∈ node.children, (g.unfold c).const? = none →
          ∃ c ∈ g.children i, g.const? ⟨c⟩ = none := by
        intro c hc hconst
        have hci := Nat.lt_trans (hg.child_lt hnode hc) hlt
        exact ⟨c, (mem_children hnode).mpr hc, (const?_unfold hg hci).symm.trans hconst⟩
      cases node with
      | const c => simp [children, hnode, Node.children] at hi
      | var k => simp [children, hnode, Node.children] at hi
      | unary op x => exact hchild x (.head _) hfolded.2
      | binary op l r =>
          obtain ⟨-, -, hl | hr⟩ := hfolded
          · exact hchild l (.head _) hl
          · exact hchild r (.tail _ (.head _)) hr

omit [Number R] in
/-- A leaf that is no constant is a variable. -/
theorem exists_var_of_leaf (hi : i < g.size) (hleaf : g.children i = [])
    (hconst : g.const? ⟨i⟩ = none) : ∃ k, g.nodes[i]? = some (.var k) := by
  have hnode := Array.getElem?_eq_getElem hi
  simp only [children, const?, hnode] at hleaf hconst
  cases h : g.nodes[i] <;> simp_all [Node.children]

/-- A folded node that is no constant reaches a variable. -/
theorem live_of_folded (hg : g.WellFormed) (hi : i < g.size) (hfolded : (g.unfold i).Folded)
    (hconst : g.const? ⟨i⟩ = none) : g.Live i := by
  induction i using Nat.strongRecOn with
  | ind i ih =>
      by_cases hleaf : g.children i = []
      · obtain ⟨k, hk⟩ := exists_var_of_leaf hi hleaf hconst
        exact ⟨i, k, .refl g i, hk⟩
      · obtain ⟨c, hc, hcconst⟩ := exists_child_of_folded hg hfolded hleaf
        have hlt := hg i c hc
        have hcfolded := unfold_child hg Expression.folded_hereditary hfolded c hc
        exact (ih c hlt (Nat.lt_trans hlt hi) hcfolded hcconst).of_reaches (.head hc (.refl g c))

/-- A recorded formula is a constant just if it reaches no variable. Below it, a constant has no
children, and an operation has an operand that is no constant, so every operation reaches a
variable. -/
theorem folding_complete (hg : Recorded g fs) (hf : f ∈ fs) :
    ((g.const? f).isSome ↔ ¬ g.Live f.root) ∧
    ∀ i, g.Reaches f.root i →
      ((g.const? ⟨i⟩).isSome → g.children i = []) ∧
      (g.children i ≠ [] → (∃ c ∈ g.children i, g.const? ⟨c⟩ = none) ∧ g.Live i) := by
  obtain ⟨hwf, hinside⟩ := hg.wellFormed
  have hroot := hinside f hf
  have hfolded := hg.folded f hf
  have hleaf : ∀ i, (g.const? ⟨i⟩).isSome → g.children i = [] := by
    intro i hconst
    obtain ⟨c, hc⟩ := Option.isSome_iff_exists.mp hconst
    simp [children, const?_eq_some hc, Node.children]
  refine ⟨⟨fun hconst hlive => ?_, fun hnot => ?_⟩, fun i hi => ⟨hleaf i, fun hop => ?_⟩⟩
  · simp [hlive.const?_eq_none] at hconst
  · rw [Option.isSome_iff_ne_none]
    exact fun hconst => hnot (live_of_folded hwf hroot hfolded hconst)
  · have hifolded := hi.unfold hwf Expression.folded_hereditary hfolded
    have hconst : g.const? ⟨i⟩ = none := by
      rw [← Option.not_isSome_iff_eq_none]
      exact fun hconst => hop (hleaf i hconst)
    exact ⟨exists_child_of_folded hwf hifolded hop,
      live_of_folded hwf (Nat.lt_of_le_of_lt (hi.le hwf) hroot) hifolded hconst⟩

/-- The formula `(x * 1 + 0 - 0) / 1`, in which every operation has a neutral operand, and the square
root of a constant. -/
def neutralOperands : Graph Float :=
  ⟨#[.var 0, .const 1.0, .binary .mul 0 1, .const 0.0, .binary .add 2 3, .const 0.0,
    .binary .sub 4 5, .const 1.0, .binary .div 6 7, .const 16.0, .const (Number.sqrt 16.0)]⟩

theorem neutralOperands_recorded :
    Recorded neutralOperands [⟨10⟩, ⟨9⟩, ⟨8⟩, ⟨6⟩, ⟨4⟩, ⟨2⟩, ⟨0⟩] :=
  ((((((Recorded.start.var 0).onLast (.binaryConst .mul ⟨0⟩ 1.0) rfl).onLast
    (.binaryConst .add ⟨2⟩ 0.0) rfl).onLast (.binaryConst .sub ⟨4⟩ 0.0) rfl).onLast
    (.binaryConst .div ⟨6⟩ 1.0) rfl).step (.const 16.0) nofun).onLast (.unary .sqrt ⟨9⟩) rfl

/-- The square root was carried out. Of the quotient, whose operations all give way to their other
operand when it is simplified, the variable is left. -/
theorem folding_complete_neutral :
    ¬ neutralOperands.Live 10 ∧
      let s := simplify .all ⟨8⟩ neutralOperands
      s.2.const? s.1 = none ∧ s.2.Live s.1.root := by
  have hg := neutralOperands_recorded
  obtain ⟨hwf, hinside⟩ := hg.wellFormed
  have hroot : 8 < neutralOperands.size := hinside ⟨8⟩ (by simp)
  have hgrown := simplify_grown .all hwf hroot
  have hs := hg.step (.simplify .all ⟨8⟩) (by simp [Step.operands])
  have hunfold : neutralOperands.unfold 8 = .binary .div (.binary .sub (.binary .add
      (.binary .mul (.var 0) (.const 1.0)) (.const 0.0)) (.const 0.0)) (.const 1.0) := by
    simp [neutralOperands, unfold, Node.expression]
  have hzero : Number.eq (0.0 : Float) 0.0 = true := by decide +kernel
  have hone : Number.eq (1.0 : Float) 1.0 = true := by decide +kernel
  have hconst : (simplify .all ⟨8⟩ neutralOperands).2.const?
      (simplify .all ⟨8⟩ neutralOperands).1 = none := by
    rw [← const?_unfold hgrown.wellFormed hgrown.root_lt, simplify_unfold hwf hroot, hunfold]
    simp [Expression.simplify, Expression.simplifyBinary, Expression.isConst, Expression.const?,
      hzero, hone]
  refine ⟨(folding_complete hg (.head _)).1.mp rfl, hconst, ?_⟩
  by_contra hnot
  have hsome := (folding_complete hs (.head _)).1.mpr hnot
  exact Option.isSome_iff_ne_none.mp hsome hconst

end Graph

end PlaneFigure
