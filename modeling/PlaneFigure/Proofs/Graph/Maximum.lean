import PlaneFigure.Proofs.Graph.Gradient
import PlaneFigure.Proofs.Graph.Reach
import PlaneFigure.Proofs.Graph.Walk
import PlaneFigure.Proofs.Number.Order

/-!
The gradient of a maximum of doubles. Its value ignores an operand that is not a number, but its
adjoint goes to the right operand whenever the comparison of both is false. So the gradient is that
of the operand whose value is taken, except where only the right operand is not a number: there the
value is that of the left operand, and the gradient that of the right one.
-/

namespace PlaneFigure

namespace Sweep

variable {R : Type} [Number R] {n : Nat} {s t : Sweep R}

/-- Two sweeps with the same gradient so far, and the same adjoints of the first `n` nodes. -/
structure AgreeBelow (n : Nat) (s t : Sweep R) : Prop where
  gradient : s.gradient = t.gradient
  adjoints : ∀ i < n, s.adjoints[i]? = t.adjoints[i]?

theorem AgreeBelow.addAll (h : AgreeBelow n s t) (shares : List (Nat × R)) :
    AgreeBelow n (s.addAll shares) (t.addAll shares) := by
  induction shares generalizing s t with
  | nil => exact h
  | cons share shares ih =>
      refine ih (s := { s with adjoints := s.adjoints.modify share.1 (· + share.2) })
        (t := { t with adjoints := t.adjoints.modify share.1 (· + share.2) })
        ⟨h.gradient, fun i hi => ?_⟩
      simp only [Array.getElem?_modify, h.adjoints i hi]

end Sweep

namespace Graph

section Sweeps

variable {R : Type} [Number R] {g h : Graph R} {n : Nat} {vs ws : Array R} {s t : Sweep R}

/-- One turn of a sweep depends on the node, and on values and adjoints of the nodes up to it. -/
theorem sweepNode_congr (hg : g.WellFormed) {i : Nat} (hi : i < n)
    (hnode : h.nodes[i]? = g.nodes[i]?) (hvalues : ∀ j < n, vs.getD j 0.0 = ws.getD j 0.0)
    (hst : s.AgreeBelow n t) : (h.sweepNode vs s i).AgreeBelow n (g.sweepNode ws t i) := by
  have hadjoint : s.adjoints.getD i 0.0 = t.adjoints.getD i 0.0 := by
    rw [Array.getD_eq_getD_getElem?, Array.getD_eq_getD_getElem?, hst.adjoints i hi]
  unfold sweepNode
  simp only [hadjoint, hnode]
  split
  · exact hst
  cases hgi : g.nodes[i]? with
  | none => exact hst
  | some node =>
      have hchildren : ∀ c ∈ node.children, vs.getD c 0.0 = ws.getD c 0.0 := fun c hc =>
        hvalues c (Nat.lt_trans (hg.child_lt hgi hc) hi)
      have hshares := Node.shares_congr (vs.getD i 0.0) (t.adjoints.getD i 0.0) hchildren
      rw [hvalues i hi] at hshares
      cases node with
      | var k => exact ⟨by simp only [hst.gradient], hst.adjoints⟩
      | _ =>
          simp only [hvalues i hi, hshares]
          exact hst.addAll _

theorem sweep_congr (hgh : g ≤ h) (hg : g.WellFormed) (hn : n ≤ g.size)
    (hvalues : ∀ j < n, vs.getD j 0.0 = ws.getD j 0.0) {l : List Nat} (hl : ∀ i ∈ l, i < n)
    (hst : s.AgreeBelow n t) :
    (l.foldr (fun i s => h.sweepNode vs s i) s).AgreeBelow n
      (l.foldr (fun i s => g.sweepNode ws s i) t) := by
  induction l with
  | nil => exact hst
  | cons i l ih =>
      have hi := hl i (.head _)
      exact sweepNode_congr hg hi (getElem?_of_le hgh (Nat.lt_of_lt_of_le hi hn)) hvalues
        (ih fun j hj => hl j (.tail _ hj))

/-- Nodes without adjoint are passed over. -/
theorem sweep_skip {l : List Nat} (hl : ∀ i ∈ l, Number.eq (s.adjoints.getD i 0.0) 0.0) :
    l.foldr (fun i s => g.sweepNode vs s i) s = s := by
  induction l with
  | nil => rfl
  | cons i l ih =>
      rw [List.foldr_cons, ih fun j hj => hl j (.tail _ hj)]
      exact if_pos (hl i (.head _))

/-- A maximum hands all of its adjoint to one operand. -/
theorem sweepNode_max (vs : Array R) {i l r : Nat} (hnode : g.nodes[i]? = some (.binary .max l r))
    (hadjoint : ¬ Number.eq (s.adjoints.getD i 0.0) 0.0 = true) :
    g.sweepNode vs s i =
      { s with
        adjoints := s.adjoints.modify
          (if Number.le (vs.getD r 0.0) (vs.getD l 0.0) then l else r)
          (· + s.adjoints.getD i 0.0) } := by
  refine (if_neg hadjoint).trans ?_
  rw [hnode]
  simp only [Node.shares]
  split <;> rfl

/-- Values of earlier nodes are those of a shorter pass over a smaller graph. -/
theorem values_getD_of_le (hgh : g ≤ h) {m : Nat} (hn : n ≤ g.size) (hm : m ≤ h.size) (hnm : n ≤ m)
    {ρ : Nat → R} {j : Nat} (hj : j < n) :
    (h.values ρ m).getD j 0.0 = (g.values ρ n).getD j 0.0 := by
  rw [Array.getD_eq_getD_getElem?, Array.getD_eq_getD_getElem?, h.values_getElem? hm (by omega),
    g.values_getElem? hn hj, valueAt_of_le hgh (Nat.lt_of_lt_of_le hj hn)]

end Sweeps

variable {g : Graph Float} {ρ : Nat → Float} {l r : Formula Float} {n : Nat}

/-- The adjoints with which the sweep begins. -/
def rootAdjoints (root : Nat) : Array Float :=
  (Array.replicate (root + 1) 0.0).setIfInBounds root 1.0

theorem rootAdjoints_getElem? (root i : Nat) :
    (rootAdjoints root)[i]? =
      if i = root then some 1.0 else if i < root then some 0.0 else none := by
  simp only [rootAdjoints, Array.getElem?_setIfInBounds, Array.getElem?_replicate]
  grind

/-- The state in which the sweep from a root begins. -/
def sweepStart (root n : Nat) : Sweep Float := ⟨rootAdjoints root, Array.replicate n 0.0⟩

/-- The state in which the root has handed its adjoint to node `c`. -/
def sweepHanded (root c n : Nat) : Sweep Float :=
  ⟨(rootAdjoints root).modify c (· + 1.0), Array.replicate n 0.0⟩

theorem gradient_eq_sweep (g : Graph Float) (ρ : Nat → Float) (f : Formula Float) (n : Nat) :
    (g.gradient ρ f n).2 =
      ((g.order f.root).toList.foldr
        (fun i s => g.sweepNode (g.values ρ (f.root + 1)) s i) (sweepStart f.root n)).gradient := by
  rw [Array.foldr_toList]
  rfl

theorem sweepStart_adjoint (root n : Nat) : (sweepStart root n).adjoints.getD root 0.0 = 1.0 := by
  simp [sweepStart, Array.getD_eq_getD_getElem?, rootAdjoints_getElem?]

theorem gradient_const (hg : g.WellFormed) {f : Formula Float} {c : Float}
    (hf : g.const? f = some c) : (g.gradient ρ f n).2 = Array.replicate n 0.0 := by
  have hnode := const?_eq_some hf
  rw [gradient_eq_sweep, order_leaf hg (by simp [children, hnode, Node.children])]
  change (g.sweepNode _ (sweepStart f.root n) f.root).gradient = _
  simp only [sweepNode, sweepStart_adjoint, hnode]
  rfl

/-- The first turn of a sweep, at a maximum that selects its right operand. -/
theorem sweepNode_start_max {root l r : Nat} (hnode : g.nodes[root]? = some (.binary .max l r))
    {vs : Array Float} (hle : ¬ vs.getD r 0.0 ≤ vs.getD l 0.0) (n : Nat) :
    g.sweepNode vs (sweepStart root n) root = sweepHanded root r n := by
  have hselect : Number.le (vs.getD r 0.0) (vs.getD l 0.0) = false := decide_eq_false hle
  rw [sweepNode_max vs hnode (by rw [sweepStart_adjoint]; decide +kernel), hselect,
    sweepStart_adjoint]
  rfl

theorem sweepHanded_getElem? {root c : Nat} (hc : c < root) (n i : Nat) :
    (sweepHanded root c n).adjoints[i]? =
      if i = c ∨ i = root then some 1.0 else if i < root then some 0.0 else none := by
  have hsum : (0.0 + 1.0 : Float) = 1.0 := by decide +kernel
  simp only [sweepHanded, Array.getElem?_modify, rootAdjoints_getElem?]
  grind

/-- What is handed to a node is what a sweep from there begins with. -/
theorem sweepHanded_agree {root c : Nat} (hc : c < root) (n : Nat) :
    Sweep.AgreeBelow (c + 1) (sweepHanded root c n) (sweepStart c n) := by
  refine ⟨rfl, fun i hi => ?_⟩
  rw [sweepHanded_getElem? hc, sweepStart, rootAdjoints_getElem?]
  grind

theorem sweepHanded_zero {root c i : Nat} (hc : c < root) (hic : i ≠ c) (hi : i < root) (n : Nat) :
    Number.eq ((sweepHanded root c n).adjoints.getD i 0.0) 0.0 := by
  rw [Array.getD_eq_getD_getElem?, sweepHanded_getElem? hc]
  simp only [hic, hi, Nat.ne_of_lt hi, or_self, if_true, if_false, Option.getD_some]
  decide +kernel

/-- The gradient of a maximum whose left operand is not selected is that of the right one: the nodes
of the right operand come first in the order, and what is swept before them has no adjoint. -/
theorem gradient_max_node {h : Graph Float} {root l r : Nat} (hgh : g ≤ h) (hg : g.WellFormed)
    (hh : h.WellFormed) (hnode : h.nodes[root]? = some (.binary .max l r)) (hl : l < g.size)
    (hr : r < g.size) (hle : ¬ g.valueAt ρ r ≤ g.valueAt ρ l) :
    (h.gradient ρ ⟨root⟩ n).2 = (g.gradient ρ ⟨r⟩ n).2 := by
  have hroot : root < h.size := (Array.getElem?_eq_some_iff.mp hnode).1
  have hlr : l < root := hh.child_lt hnode (by simp [Node.children])
  have hrr : r < root := hh.child_lt hnode (by simp [Node.children])
  obtain ⟨more, horder⟩ := order_binary hgh hg hh hnode hr
  have hvalues : ∀ {k}, k < root → k < g.size → ∀ j < k + 1,
      (h.values ρ (root + 1)).getD j 0.0 = (g.values ρ (k + 1)).getD j 0.0 :=
    fun hk hkg j hj => values_getD_of_le hgh hkg hroot (by omega) hj
  have hturn : h.sweepNode (h.values ρ (root + 1)) (sweepStart root n) root =
      sweepHanded root r n := by
    refine sweepNode_start_max hnode ?_ n
    rw [hvalues hlr hl l (Nat.lt_succ_self l), hvalues hrr hr r (Nat.lt_succ_self r)]
    exact hle
  have hskip : ∀ i ∈ more, Number.eq ((sweepHanded root r n).adjoints.getD i 0.0) 0.0 := by
    intro i hi
    -- the node is neither the right operand, which comes earlier, nor the maximum itself
    have hnodup := (order_childrenFirst hh root).nodup
    rw [horder] at hnodup
    have hne : i ≠ r ∧ i ≠ root := by
      have := root_mem_order hg r
      grind
    have hmem : i ∈ (h.order root).toList := by simp [horder, hi]
    have hlt : i < root := Nat.lt_of_le_of_ne (le_of_mem_order hh hmem) hne.2
    exact sweepHanded_zero hrr hne.1 hlt n
  rw [gradient_eq_sweep, gradient_eq_sweep]
  simp only [horder, List.foldr_append, List.foldr_cons, List.foldr_nil, hturn]
  rw [sweep_skip (l := more) hskip]
  exact (sweep_congr hgh hg hr (hvalues hrr hr)
    (fun i hi => Nat.lt_succ_of_le (le_of_mem_order hg hi)) (sweepHanded_agree hrr n)).gradient

/-- An operation on constants is a constant, and otherwise a node of its own. -/
theorem binary_cases (op : BinaryOp) (l r : Formula Float) (g : Graph Float) :
    (∃ c b, g.const? r = some b ∧ binary op l r g = push (.const c) g) ∨
      binary op l r g = push (.binary op l.root r.root) g := by
  unfold binary
  split
  · exact .inl ⟨_, _, ‹_›, rfl⟩
  · exact .inr rfl

theorem gradient_max_of_not_le (hg : g.WellFormed) (hl : l.root < g.size) (hr : r.root < g.size)
    (hle : ¬ g.value ρ r ≤ g.value ρ l) :
    ((binary .max l r g).2.gradient ρ (binary .max l r g).1 n).2 = (g.gradient ρ r n).2 := by
  have hgrown : Grown g (binary .max l r g).1 (binary .max l r g).2 := binary_grown hg hl hr
  obtain ⟨c, b, hb, hbinary⟩ | hbinary := binary_cases .max l r g
  · rw [hbinary] at hgrown ⊢
    rw [gradient_const hg hb]
    exact gradient_const hgrown.wellFormed (c := c) (by simp [const?, push])
  · rw [hbinary] at hgrown ⊢
    exact gradient_max_node hgrown.le hg hgrown.wellFormed (getElem?_push_size g _) hl hr hle

/-- Every maximum hands its adjoint to an operand of its own value, unless only the right operand is
not a number. So an operand that is not a number changes neither value nor gradient on the left, and
on the right it takes the gradient without the value. -/
theorem max_gradient {fs : List (Formula Float)} (hg : Recorded g fs) (ρ : Nat → Float) :
    (∀ i l r : Nat, g.nodes[i]? = some (.binary .max l r) →
      ∀ m, i < m → m ≤ g.size → ∀ s : Sweep Float, (s.adjoints.getD i 0.0 == 0.0) = false →
      ∃ c, (c = l ∨ c = r) ∧
        g.sweepNode (g.values ρ m) s i =
          { s with adjoints := s.adjoints.modify c (· + s.adjoints.getD i 0.0) } ∧
        (g.valueAt ρ c = g.valueAt ρ i ↔
          ((g.valueAt ρ r).isNaN = true → (g.valueAt ρ l).isNaN = true))) ∧
    ∀ f ∈ fs, ∀ h ∈ fs, (g.value ρ h).isNaN = true →
      let left := binary .max h f g
      let right := binary .max f h g
      left.2.value ρ left.1 = g.value ρ f ∧ right.2.value ρ right.1 = g.value ρ f ∧
      ∀ n, left.2.gradient ρ left.1 n = g.gradient ρ f n ∧
        right.2.gradient ρ right.1 n = (g.value ρ f, (g.gradient ρ h n).2) := by
  obtain ⟨hwf, hinside⟩ := hg.wellFormed
  constructor
  · intro i l r hnode m him hm s hadjoint
    have hl := hwf.child_lt hnode (c := l) (by simp [Node.children])
    have hr := hwf.child_lt hnode (c := r) (by simp [Node.children])
    have hvalue : ∀ c < m, (g.values ρ m).getD c 0.0 = g.valueAt ρ c := fun c hc =>
      values_getD_of_le (le_refl g) (Nat.lt_of_lt_of_le hc hm) hm hc (Nat.lt_succ_self c)
    have hturn := sweepNode_max (g.values ρ m) hnode (ne_true_of_eq_false hadjoint)
    rw [hvalue l (by omega), hvalue r (by omega)] at hturn
    refine ⟨_, ?_, hturn, ?_⟩
    · exact (ite_eq_or_eq _ l r)
    · rw [hwf.valueAt_eq hnode, apply_ite (g.valueAt ρ)]
      refine Iff.trans (Eq.congr_left ?_) Double.selected_eq_larger_iff
      exact if_congr decide_eq_true_iff rfl rfl
  · intro f hf h hh hnan left right
    have hfg := hinside f hf
    have hhg := hinside h hh
    have hleft : left.2.value ρ left.1 = g.value ρ f :=
      (binary_value hhg hfg).trans (Double.larger_of_isNaN_left hnan)
    have hright : right.2.value ρ right.1 = g.value ρ f :=
      (binary_value hfg hhg).trans (Double.larger_of_isNaN_right hnan)
    have hnone : ∀ x : Float, ¬ g.value ρ h ≤ x ∧ ¬ x ≤ g.value ρ h := fun x =>
      ⟨fun hle => ne_true_of_eq_false (Double.le_iff.mp hle).1 hnan,
        fun hle => ne_true_of_eq_false (Double.le_iff.mp hle).2.1 hnan⟩
    exact ⟨hleft, hright, fun n =>
      ⟨Prod.ext hleft (gradient_max_of_not_le hwf hhg hfg (hnone _).2),
        Prod.ext hright (gradient_max_of_not_le hwf hfg hhg (hnone _).1)⟩⟩

/-- A variable, and the root of another one. -/
def withRoot : Graph Float := ⟨#[.var 0, .var 1, .unary .sqrt 1]⟩

theorem withRoot_recorded : Recorded withRoot [⟨2⟩, ⟨1⟩, ⟨0⟩] :=
  ((Recorded.start.var 0).var 1).onLast (.unary .sqrt ⟨1⟩) rfl

theorem withRoot_order : (binary .max ⟨0⟩ ⟨2⟩ withRoot).2.order 3 = #[1, 2, 0, 3] := by
  simp [withRoot, binary, const?, push, order, walk, children, Node.children]

/-- Where the other variable is minus one, its root on the left of a maximum is ignored; on the right,
the adjoint of the maximum goes there, though its value is that of the variable. -/
theorem max_gradient_root :
    let ρ : Nat → Float := fun i => if i = 0 then 1.0 else -1.0
    let left := binary .max ⟨2⟩ ⟨0⟩ withRoot
    let right := binary .max ⟨0⟩ ⟨2⟩ withRoot
    left.2.gradient ρ left.1 2 = withRoot.gradient ρ ⟨0⟩ 2 ∧
      right.2.gradient ρ right.1 2 = (1.0, (withRoot.gradient ρ ⟨2⟩ 2).2) ∧
      ∃ c, (c = 0 ∨ c = 2) ∧
        right.2.sweepNode (right.2.values ρ 4) (sweepStart 3 2) 3 =
          { sweepStart 3 2 with
            adjoints := (sweepStart 3 2).adjoints.modify c
              (· + (sweepStart 3 2).adjoints.getD 3 0.0) } ∧
        right.2.valueAt ρ c ≠ right.2.valueAt ρ 3 := by
  intro ρ left right
  have hgradient := (max_gradient withRoot_recorded ρ).2 ⟨0⟩ (by simp) ⟨2⟩ (by simp)
    (by decide +kernel)
  have hright : Recorded right.2 [⟨3⟩, ⟨2⟩, ⟨1⟩, ⟨0⟩] :=
    withRoot_recorded.step (.binary .max ⟨0⟩ ⟨2⟩) (by simp [StraightLine.Step.operands])
  obtain ⟨c, hc, hturn, hvalue⟩ := (max_gradient hright ρ).1 3 0 2 rfl 4 (by decide) (by decide)
    (sweepStart 3 2) (by decide +kernel)
  refine ⟨(hgradient.2.2 2).1, ?_, c, hc, hturn, fun heq => ?_⟩
  · have hone : withRoot.value ρ ⟨0⟩ = 1.0 := by decide +kernel
    exact (hgradient.2.2 2).2.trans (by rw [hone])
  · exact absurd (hvalue.mp heq) (by decide +kernel)

/-- The same maximum has the value of the variable, one, but not its gradient. -/
theorem max_gradient_vanishes :
    let ρ : Nat → Float := fun i => if i = 0 then 1.0 else -1.0
    let m := binary .max ⟨0⟩ ⟨2⟩ withRoot
    (withRoot.value ρ ⟨2⟩).isNaN = true ∧ m.2.value ρ m.1 = withRoot.value ρ ⟨0⟩ ∧
      m.2.gradient ρ m.1 2 = (1.0, #[0.0, 0.0]) ∧
      withRoot.gradient ρ ⟨0⟩ 2 = (1.0, #[1.0, 0.0]) := by
  intro ρ m
  have hvariable : withRoot.order 0 = #[0] := by
    simp [withRoot, order, walk, children, Node.children]
  refine ⟨by decide +kernel, by decide +kernel, ?_, ?_⟩
  · have horder : m.2.order m.1.root = #[1, 2, 0, 3] := withRoot_order
    simp only [gradient, horder]
    decide +kernel
  · simp only [gradient, hvariable]
    decide +kernel

end Graph

end PlaneFigure
