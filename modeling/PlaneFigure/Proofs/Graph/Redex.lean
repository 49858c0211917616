import PlaneFigure.Proofs.Graph.Constants
import PlaneFigure.Proofs.Graph.Renaming

/-!
Simplified formulas are in normal form: no rule applies to any of their nodes, so simplifying them
again changes nothing but the numbers of the nodes. All rules after those for negations give what all
rules give at once, because constants are folded in everything that is recorded.
-/

namespace PlaneFigure.Graph

variable {R : Type} [Number R] {g : Graph R} {fs : List (Formula R)} {f : Formula R}
  {i : Nat} {how : RuleSet}

/-- Node `i` is a constant equal to `c`. -/
def Literal (g : Graph R) (i : Nat) (c : R) : Prop :=
  ∃ d, g.nodes[i]? = some (.const d) ∧ Number.eq d c

/-- A rule applies at node `i`: for double negations, for sines and cosines of negations, or, if all
rules may be used, for neutral constants. -/
inductive Redex (how : RuleSet) (g : Graph R) (i : Nat) : Prop
  | neg_neg {x y : Nat} (hi : g.nodes[i]? = some (.unary .neg x))
      (hx : g.nodes[x]? = some (.unary .neg y))
  | sin_neg {x y : Nat} (hi : g.nodes[i]? = some (.unary .sin x))
      (hx : g.nodes[x]? = some (.unary .neg y))
  | cos_neg {x y : Nat} (hi : g.nodes[i]? = some (.unary .cos x))
      (hx : g.nodes[x]? = some (.unary .neg y))
  | add_zero {l r : Nat} (hhow : how = .all) (hi : g.nodes[i]? = some (.binary .add l r))
      (hr : g.Literal r 0.0)
  | zero_add {l r : Nat} (hhow : how = .all) (hi : g.nodes[i]? = some (.binary .add l r))
      (hl : g.Literal l 0.0)
  | sub_zero {l r : Nat} (hhow : how = .all) (hi : g.nodes[i]? = some (.binary .sub l r))
      (hr : g.Literal r 0.0)
  | mul_one {l r : Nat} (hhow : how = .all) (hi : g.nodes[i]? = some (.binary .mul l r))
      (hr : g.Literal r 1.0)
  | one_mul {l r : Nat} (hhow : how = .all) (hi : g.nodes[i]? = some (.binary .mul l r))
      (hl : g.Literal l 1.0)
  | div_one {l r : Nat} (hhow : how = .all) (hi : g.nodes[i]? = some (.binary .div l r))
      (hr : g.Literal r 1.0)

theorem isConst_of_literal (hg : g.WellFormed) {c : R} (h : g.Literal i c) :
    (g.unfold i).isConst c := by
  obtain ⟨d, hd, heq⟩ := h
  rw [hg.unfold_eq hd]
  exact heq

/-- No rule applies at a node whose expression is normal. -/
theorem not_redex_of_normal (hg : g.WellFormed) (h : (g.unfold i).Normal how) :
    ¬ g.Redex how i := by
  have hneg : ∀ {op x y}, op.HasSymmetry → g.nodes[i]? = some (.unary op x) →
      g.nodes[x]? ≠ some (.unary .neg y) := by
    intro op x y hop hi hx
    rw [hg.unfold_eq hi] at h
    have hnot := h.2.2 hop
    rw [hg.unfold_eq hx] at hnot
    exact Option.some_ne_none _ hnot
  have hneutral : ∀ {op l r}, g.nodes[i]? = some (.binary op l r) →
      ¬ Expression.Neutralized how op (g.unfold l) (g.unfold r) := by
    intro op l r hi
    rw [hg.unfold_eq hi] at h
    exact h.2.2.2
  intro hredex
  cases hredex with
  | neg_neg hi hx => exact hneg (.inl rfl) hi hx
  | sin_neg hi hx => exact hneg (.inr (.inl rfl)) hi hx
  | cos_neg hi hx => exact hneg (.inr (.inr rfl)) hi hx
  | add_zero hhow hi hr => exact hneutral hi ⟨hhow, .inr (isConst_of_literal hg hr)⟩
  | zero_add hhow hi hl => exact hneutral hi ⟨hhow, .inl (isConst_of_literal hg hl)⟩
  | sub_zero hhow hi hr => exact hneutral hi ⟨hhow, isConst_of_literal hg hr⟩
  | mul_one hhow hi hr => exact hneutral hi ⟨hhow, .inr (isConst_of_literal hg hr)⟩
  | one_mul hhow hi hl => exact hneutral hi ⟨hhow, .inl (isConst_of_literal hg hl)⟩
  | div_one hhow hi hr => exact hneutral hi ⟨hhow, isConst_of_literal hg hr⟩

/-- No rule applies to a simplified formula any more. Simplified again, it has the same structure, even
the same sharing: it is recorded again node by node. And whether the rules for negations alone were
used before makes no difference to the structure when all rules are used, though it may to what is
shared in it. -/
theorem simplify_normal_form (hg : Recorded g fs) (hf : f ∈ fs) :
    (∀ how : RuleSet, let s := simplify how f g
      (∀ i, s.2.Reaches s.1.root i → ¬ s.2.Redex how i) ∧
      let again := simplify how s.1 s.2
      again.2.unfold again.1.root = s.2.unfold s.1.root ∧
        ∃ φ, φ s.1.root = again.1.root ∧ Renames φ s.2 s.1.root again.2) ∧
    let s := simplify .trig f g
    let thenAll := simplify .all s.1 s.2
    let all := simplify .all f g
    thenAll.2.unfold thenAll.1.root = all.2.unfold all.1.root := by
  obtain ⟨hwf, hinside⟩ := hg.wellFormed
  have hroot := hinside f hf
  have hgrown := fun how => simplify_grown how hwf hroot
  have hunfold : ∀ how, (simplify how f g).2.unfold (simplify how f g).1.root =
      (g.unfold f.root).simplify how := fun how => simplify_unfold hwf hroot
  have hnormal : ∀ how, ((simplify how f g).2.unfold (simplify how f g).1.root).Normal how := by
    intro how
    rw [hunfold how]
    exact Expression.simplify_normal how _
  refine ⟨fun how => ⟨fun i hi => ?_, ?_, ?_⟩, ?_⟩
  · have hwf' := (hgrown how).wellFormed
    exact not_redex_of_normal hwf' (normal_of_reaches hwf' hi (hnormal how))
  · rw [simplify_unfold (hgrown how).wellFormed (hgrown how).root_lt,
      Expression.simplify_of_normal (hnormal how)]
  · exact simplify_renames (hgrown how).wellFormed (hgrown how).root_lt (hnormal how)
  · show (simplify .all (simplify .trig f g).1 (simplify .trig f g).2).2.unfold _ = _
    rw [simplify_unfold (hgrown .trig).wellFormed (hgrown .trig).root_lt, hunfold .trig,
      Expression.simplify_trig_all (hg.folded f hf), hunfold .all]

/-- The sine of `-(-x + 0)`. A rule for negations applies before the sum is simplified, and two more
when its negation has come to light. -/
def hiddenNegation : Graph Float :=
  ⟨#[.var 0, .unary .neg 0, .const 0.0, .binary .add 1 2, .unary .neg 3, .unary .sin 4]⟩

theorem hiddenNegation_recorded : Recorded hiddenNegation [⟨5⟩, ⟨4⟩, ⟨3⟩, ⟨1⟩, ⟨0⟩] :=
  ((((Recorded.start.var 0).onLast (.unary .neg ⟨0⟩) rfl).onLast (.binaryConst .add ⟨1⟩ 0.0)
    rfl).onLast (.unary .neg ⟨3⟩) rfl).onLast (.unary .sin ⟨4⟩) rfl

/-- In both ways it becomes the sine of `x`. -/
theorem simplify_normal_form_hidden :
    let all := simplify .all ⟨5⟩ hiddenNegation
    let s := simplify .trig ⟨5⟩ hiddenNegation
    let thenAll := simplify .all s.1 s.2
    (∀ i, all.2.Reaches all.1.root i → ¬ all.2.Redex .all i) ∧
      thenAll.2.unfold thenAll.1.root = .unary .sin (.var 0) := by
  obtain ⟨hnormal, hthen⟩ := simplify_normal_form hiddenNegation_recorded (.head _)
  obtain ⟨hwf, hinside⟩ := hiddenNegation_recorded.wellFormed
  have hzero : Number.eq (0.0 : Float) 0.0 = true := by decide +kernel
  have hunfold : hiddenNegation.unfold 5 =
      .unary .sin (.unary .neg (.binary .add (.unary .neg (.var 0)) (.const 0.0))) := by
    simp [hiddenNegation, unfold, Node.expression]
  refine ⟨(hnormal .all).1, hthen.trans ((simplify_unfold hwf (hinside _ (.head _))).trans ?_)⟩
  rw [hunfold]
  simp [Expression.simplify, Expression.simplifyUnary, Expression.simplifyBinary,
    Expression.isConst, Expression.const?, Expression.negated?, Expression.applyUnary, hzero]

end PlaneFigure.Graph
