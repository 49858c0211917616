import PlaneFigure.Graph.Simplify
import PlaneFigure.Proofs.Graph.Operation
import PlaneFigure.Proofs.Graph.Order

/-!
Simplified formulas. They are recorded on top of the graph, and have the value of the original as
far as the rules that were applied are laws of the numbers.
-/

namespace PlaneFigure

/-- Negation is an involution, the sine is odd, and the cosine is even. -/
structure TrigSymmetry (R : Type) [Number R] : Prop where
  neg_neg : ∀ x : R, - -x = x
  sin_neg : ∀ x : R, Number.sin (-x) = -Number.sin x
  cos_neg : ∀ x : R, Number.cos (-x) = Number.cos x

/-- What equals zero or one is neutral. -/
structure NeutralConstants (R : Type) [Number R] : Prop where
  add_zero : ∀ x c : R, Number.eq c 0.0 → x + c = x
  zero_add : ∀ x c : R, Number.eq c 0.0 → c + x = x
  sub_zero : ∀ x c : R, Number.eq c 0.0 → x - c = x
  mul_one : ∀ x c : R, Number.eq c 1.0 → x * c = x
  one_mul : ∀ x c : R, Number.eq c 1.0 → c * x = x
  div_one : ∀ x c : R, Number.eq c 1.0 → x / c = x

/-- The laws that a set of rules relies on. -/
def RuleSet.Lawful (R : Type) [Number R] : RuleSet → Prop
  | .trig => TrigSymmetry R
  | .all => TrigSymmetry R ∧ NeutralConstants R

theorem RuleSet.Lawful.trig {R : Type} [Number R] {how : RuleSet} (h : how.Lawful R) :
    TrigSymmetry R := by
  cases how with
  | trig => exact h
  | all => exact h.1

namespace Graph

variable {R : Type} [Number R] {g h : Graph R} {ρ : Nat → R} {how : RuleSet}
  {op : UnaryOp} {bop : BinaryOp} {f x l r : Formula R}

omit [Number R] in
theorem negated?_eq_some (hf : g.negated? f = some x) :
    g.nodes[f.root]? = some (.unary .neg x.root) := by
  unfold negated? at hf
  split at hf
  · cases hf
    assumption
  · cases hf

omit [Number R] in
theorem negated?_root_lt (hg : g.WellFormed) (hf : g.negated? f = some x) : x.root < g.size := by
  have hnode := negated?_eq_some hf
  have hlt := (Array.getElem?_eq_some_iff.mp hnode).1
  exact Nat.lt_trans (hg.child_lt hnode (by simp [Node.children])) hlt

theorem value_of_negated? (hg : g.WellFormed) (hf : g.negated? f = some x) :
    g.value ρ f = -g.value ρ x :=
  hg.valueAt_eq (negated?_eq_some hf)

theorem value_of_isConst {c : R} (hf : g.isConst f c) : Number.eq (g.value ρ f) c := by
  unfold isConst at hf
  split at hf
  · rwa [value_of_const? ‹_›]
  · cases hf

theorem simplifyUnary_grown (hg : g.WellFormed) (hx : x.root < g.size) :
    Grown g (simplifyUnary op x g).1 (simplifyUnary op x g).2 := by
  unfold simplifyUnary
  split
  · exact .refl hg (negated?_root_lt hg ‹_›)
  next y hneg =>
    have hsin : Grown g (unary .sin y g).1 (unary .sin y g).2 :=
      unary_grown hg (negated?_root_lt hg hneg)
    exact (unary_grown hsin.wellFormed hsin.root_lt).of_le hsin.le
  · exact unary_grown hg (negated?_root_lt hg ‹_›)
  · exact unary_grown hg hx

theorem simplifyUnary_value (hR : TrigSymmetry R) (hg : g.WellFormed) (hx : x.root < g.size) :
    (simplifyUnary op x g).2.value ρ (simplifyUnary op x g).1 = op.apply (g.value ρ x) := by
  unfold simplifyUnary
  split
  next y hneg =>
    rw [value_of_negated? hg hneg]
    exact (hR.neg_neg _).symm
  next y hneg =>
    have hy := negated?_root_lt hg hneg
    have hsin : Grown g (unary .sin y g).1 (unary .sin y g).2 := unary_grown hg hy
    rw [value_of_negated? hg hneg]
    refine Eq.trans ?_ (hR.sin_neg _).symm
    exact (unary_value hsin.root_lt).trans (congrArg (- ·) (unary_value hy))
  next y hneg =>
    rw [value_of_negated? hg hneg]
    exact (unary_value (negated?_root_lt hg hneg)).trans (hR.cos_neg _).symm
  · exact unary_value hx

/-- By whatever rules, a binary operation comes to one of its operands, or is recorded. -/
theorem simplifyBinary_cases (how : RuleSet) (op : BinaryOp) (l r : Formula R) (g : Graph R) :
    simplifyBinary how op l r g = (l, g) ∨ simplifyBinary how op l r g = (r, g) ∨
      simplifyBinary how op l r g = binary op l r g := by
  cases how with
  | trig => exact .inr (.inr (by cases op <;> rfl))
  | all =>
      cases op with
      | max => exact .inr (.inr rfl)
      | sub => exact (ite_eq_or_eq ..).imp_right .inr
      | div => exact (ite_eq_or_eq ..).imp_right .inr
      -- the right operand is looked at first, the left one if that is kept
      | add => exact (ite_eq_or_eq ..).imp_right fun h => (ite_eq_or_eq ..).imp h.trans h.trans
      | mul => exact (ite_eq_or_eq ..).imp_right fun h => (ite_eq_or_eq ..).imp h.trans h.trans

theorem simplifyBinary_grown (hg : g.WellFormed) (hl : l.root < g.size) (hr : r.root < g.size) :
    Grown g (simplifyBinary how bop l r g).1 (simplifyBinary how bop l r g).2 := by
  obtain heq | heq | heq := simplifyBinary_cases how bop l r g <;> rw [heq]
  · exact .refl hg hl
  · exact .refl hg hr
  · exact binary_grown hg hl hr

theorem simplifyBinary_value (hR : how.Lawful R) (hl : l.root < g.size) (hr : r.root < g.size) :
    (simplifyBinary how bop l r g).2.value ρ (simplifyBinary how bop l r g).1 =
      bop.apply (g.value ρ l) (g.value ρ r) := by
  unfold simplifyBinary
  split
  · split
    · exact (hR.2.add_zero _ _ (value_of_isConst ‹_›)).symm
    split
    · exact (hR.2.zero_add _ _ (value_of_isConst ‹_›)).symm
    · exact binary_value hl hr
  · split
    · exact (hR.2.sub_zero _ _ (value_of_isConst ‹_›)).symm
    · exact binary_value hl hr
  · split
    · exact (hR.2.mul_one _ _ (value_of_isConst ‹_›)).symm
    split
    · exact (hR.2.one_mul _ _ (value_of_isConst ‹_›)).symm
    · exact binary_value hl hr
  · split
    · exact (hR.2.div_one _ _ (value_of_isConst ‹_›)).symm
    · exact binary_value hl hr
  · exact binary_value hl hr

/-- What holds while the first `n` nodes of `g` are simplified: `done` maps each of them to a
formula of the graph so far, of the same value. -/
structure Simplifying (how : RuleSet) (g : Graph R) (n : Nat) (done : Array Nat) (h : Graph R) :
    Prop where
  size : done.size = n
  le : g ≤ h
  wellFormed : h.WellFormed
  root_lt : ∀ i < n, done.getD i i < h.size
  value_eq : how.Lawful R → ∀ ρ, ∀ i < n, h.valueAt ρ (done.getD i i) = g.valueAt ρ i

namespace Simplifying

variable {n i : Nat} {done : Array Nat}

theorem start (how : RuleSet) (hg : g.WellFormed) (hn : n ≤ g.size) :
    Simplifying how g n (Array.range n) g := by
  have hdone : ∀ i < n, (Array.range n).getD i i = i := by
    intro i hi
    simp [Array.getD_eq_getD_getElem?, hi]
  exact {
    size := Array.size_range
    le := le_refl g
    wellFormed := hg
    root_lt := fun i hi => (hdone i hi).symm ▸ Nat.lt_of_lt_of_le hi hn
    value_eq := fun _ ρ i hi => by rw [hdone i hi] }

/-- Simplifying one node. -/
theorem node (hs : Simplifying how g n done h) (hi : i < n) (hn : n ≤ g.size) :
    Grown h (simplifyNode how done i h).1 (simplifyNode how done i h).2 ∧
      (how.Lawful R → ∀ ρ, (simplifyNode how done i h).2.value ρ (simplifyNode how done i h).1 =
        g.valueAt ρ i) := by
  have hig := Nat.lt_of_lt_of_le hi hn
  -- nodes of `g` have kept their values, and children have been simplified to formulas of these
  have hsame : ∀ {c}, c ≤ i → ∀ ρ, h.valueAt ρ c = g.valueAt ρ c :=
    fun hc ρ => valueAt_of_le hs.le (Nat.lt_of_le_of_lt hc hig)
  have hchild : how.Lawful R → ∀ ρ c, c < i → h.valueAt ρ (done.getD c c) = h.valueAt ρ c := by
    intro hR ρ c hc
    rw [hs.value_eq hR ρ c (Nat.lt_trans hc hi), hsame (Nat.le_of_lt hc)]
  unfold simplifyNode
  split
  next op x hnode =>
    have hx : x < i := hs.wellFormed.child_lt hnode (by simp [Node.children])
    have hlt := hs.root_lt x (Nat.lt_trans hx hi)
    refine ⟨simplifyUnary_grown hs.wellFormed hlt, fun hR ρ => ?_⟩
    rw [← hsame (Nat.le_refl i), hs.wellFormed.valueAt_eq hnode]
    exact (simplifyUnary_value hR.trig hs.wellFormed hlt).trans
      (congrArg op.apply (hchild hR ρ x hx))
  next op l r hnode =>
    have hl : l < i := hs.wellFormed.child_lt hnode (by simp [Node.children])
    have hr : r < i := hs.wellFormed.child_lt hnode (by simp [Node.children])
    have hllt := hs.root_lt l (Nat.lt_trans hl hi)
    have hrlt := hs.root_lt r (Nat.lt_trans hr hi)
    refine ⟨simplifyBinary_grown hs.wellFormed hllt hrlt, fun hR ρ => ?_⟩
    rw [← hsame (Nat.le_refl i), hs.wellFormed.valueAt_eq hnode]
    exact (simplifyBinary_value hR hllt hrlt).trans
      (congrArg₂ op.apply (hchild hR ρ l hl) (hchild hR ρ r hr))
  · exact ⟨.refl hs.wellFormed (Nat.lt_of_lt_of_le hig (size_le_of_le hs.le)),
      fun _ ρ => hsame (Nat.le_refl i) ρ⟩

/-- Simplifying one node says of no other what it has become. -/
theorem getD_step (hs : Simplifying how g n done h) (hi : i < n) (j : Nat) :
    (simplifyStep how (done, h) i).1.getD j j =
      if i = j then (simplifyNode how done i h).1.root else done.getD j j := by
  change (done.setIfInBounds i (simplifyNode how done i h).1.root).getD j j = _
  rw [Array.getD_eq_getD_getElem?, Array.getElem?_setIfInBounds, hs.size]
  split
  · rw [Option.getD_some]
  · rw [Array.getD_eq_getD_getElem?]

theorem step (hs : Simplifying how g n done h) (hi : i < n) (hn : n ≤ g.size) :
    Simplifying how g n (simplifyStep how (done, h) i).1 (simplifyStep how (done, h) i).2 := by
  obtain ⟨hgrown, hvalue⟩ := hs.node hi hn
  have hget := hs.getD_step hi
  refine ⟨(Array.size_setIfInBounds ..).trans hs.size, hs.le.trans hgrown.le, hgrown.wellFormed,
    fun j hj => ?_, fun hR ρ j hj => ?_⟩ <;> rw [hget j] <;> split
  · exact hgrown.root_lt
  · exact Nat.lt_of_lt_of_le (hs.root_lt j hj) (size_le_of_le hgrown.le)
  · subst_vars
    exact hvalue hR ρ
  · exact (valueAt_of_le hgrown.le (hs.root_lt j hj)).trans (hs.value_eq hR ρ j hj)

theorem run (hs : Simplifying how g n done h) (hn : n ≤ g.size) {l : List Nat}
    (hl : ∀ i ∈ l, i < n) :
    Simplifying how g n (l.foldl (simplifyStep how) (done, h)).1
      (l.foldl (simplifyStep how) (done, h)).2 := by
  induction l generalizing done h with
  | nil => exact hs
  | cons i l ih =>
      exact ih (hs.step (hl i (List.mem_cons_self ..)) hn) fun j hj => hl j (.tail _ hj)

/-- Node `i` is simplified next, when its children and the other nodes of `s` have been. -/
structure Next (how : RuleSet) (g : Graph R) (n : Nat) (s : List Nat) (i : Nat) (done : Array Nat)
    (h : Graph R) : Prop where
  simplifying : Simplifying how g n done h
  size : n ≤ g.size
  before : g.ChildrenFirst s
  inside : ∀ j ∈ s, j < n
  new : i ∉ s
  children : ∀ c ∈ g.children i, c ∈ s
  lt : i < n

namespace Next

variable {s : List Nat} {j : Nat} (hnext : Next how g n s i done h)

include hnext

theorem grown : Grown h (simplifyNode how done i h).1 (simplifyNode how done i h).2 :=
  (hnext.simplifying.node hnext.lt hnext.size).1

theorem lt_size : i < g.size := Nat.lt_of_lt_of_le hnext.lt hnext.size

/-- What is recorded on top of the graph leaves the node as it was. -/
theorem getElem?_eq : h.nodes[i]? = g.nodes[i]? := getElem?_of_le hnext.simplifying.le hnext.lt_size

/-- The step says what the node has become. -/
theorem getD_self :
    (simplifyStep how (done, h) i).1.getD i i = (simplifyNode how done i h).1.root :=
  (hnext.simplifying.getD_step hnext.lt i).trans (if_pos rfl)

/-- Of the nodes before it says what was said. -/
theorem getD_before (hj : j ∈ s) :
    (simplifyStep how (done, h) i).1.getD j j = done.getD j j :=
  (hnext.simplifying.getD_step hnext.lt j).trans
    (if_neg fun heq : i = j => hnext.new (heq.symm ▸ hj))

theorem root_lt (hj : j ∈ s) : done.getD j j < h.size :=
  hnext.simplifying.root_lt j (hnext.inside j hj)

end Next

/-- What holds at the start and is kept by the step at the node that comes next, holds when the nodes
of a list have been simplified, children first. -/
theorem along {P : List Nat → Array Nat → Graph R → Prop} (how : RuleSet) (hg : g.WellFormed)
    (hn : n ≤ g.size) (start : P [] (Array.range n) g)
    (snoc : ∀ {s i done h}, Next how g n s i done h → P s done h →
      P (s ++ [i]) (simplifyStep how (done, h) i).1 (simplifyStep how (done, h) i).2)
    {s : List Nat} (hs : g.ChildrenFirst s) (hlt : ∀ i ∈ s, i < n) :
    P s (s.foldl (simplifyStep how) (Array.range n, g)).1
      (s.foldl (simplifyStep how) (Array.range n, g)).2 := by
  induction hs with
  | nil => exact start
  | @snoc s i hs hnew hchildren ih =>
      obtain ⟨hlt, hi⟩ := List.forall_mem_append.mp hlt
      rw [List.foldl_concat]
      exact snoc ⟨(Simplifying.start how hg hn).run hn hlt, hn, hs, hlt, hnew, hchildren,
        hi i (List.mem_singleton_self i)⟩ (ih hlt)

end Simplifying

theorem simplify_simplifying (how : RuleSet) (hg : g.WellFormed) (hf : f.root < g.size) :
    ∃ done, Simplifying how g (f.root + 1) done (simplify how f g).2 ∧
      (simplify how f g).1.root = done.getD f.root f.root := by
  have hrun := (Simplifying.start how hg hf).run hf (l := (g.order f.root).toList)
    fun i hi => Nat.lt_succ_of_le (le_of_mem_order hg hi)
  rw [Array.foldl_toList] at hrun
  exact ⟨_, hrun, rfl⟩

theorem simplify_grown (how : RuleSet) (hg : g.WellFormed) (hf : f.root < g.size) :
    Grown g (simplify how f g).1 (simplify how f g).2 := by
  obtain ⟨done, hs, hroot⟩ := simplify_simplifying how hg hf
  exact ⟨hs.le, hs.wellFormed, hroot ▸ hs.root_lt _ (Nat.lt_succ_self _)⟩

/-- A simplified formula has the value of the original. -/
theorem simplify_value (hR : how.Lawful R) (hg : g.WellFormed) (hf : f.root < g.size) :
    (simplify how f g).2.value ρ (simplify how f g).1 = g.value ρ f := by
  obtain ⟨done, hs, hroot⟩ := simplify_simplifying how hg hf
  have := hs.value_eq hR ρ f.root (Nat.lt_succ_self _)
  rwa [← hroot] at this

end Graph

end PlaneFigure
