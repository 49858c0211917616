import Mathlib.Algebra.BigOperators.Group.Finset.Piecewise
import Mathlib.Tactic.FieldSimp
import Mathlib.Tactic.Ring
import PlaneFigure.Graph.Gradient
import PlaneFigure.Proofs.Graph.Expression
import PlaneFigure.Proofs.Graph.Order
import PlaneFigure.Proofs.Graph.Recorded
import PlaneFigure.Proofs.Number.Real

/-!
Gradients in exact arithmetic. The backward sweep over the shared nodes of a formula computes the
derivatives that structural recursion finds on the unfolded expression. At every turn of the sweep
the gradient so far, and what the adjoints of the nodes ahead still contribute to it, add up to the
derivative.
-/

namespace PlaneFigure

/-- The derivative of an operation. The square root counts as flat where it is zero, the arc cosine
outside the open unit interval. -/
noncomputable def UnaryOp.slope (op : UnaryOp) (x : ℝ) : ℝ :=
  match op with
  | .neg => -1
  | .sqrt => if 0 < √x then 1 / (2 * √x) else 0
  | .sin => Real.cos x
  | .cos => -Real.sin x
  | .acos => if x * x < 1 then -1 / √(1 - x * x) else 0
  | .tanh => 1 - Real.tanh x ^ 2
  | .sigmoid => Number.sigmoid x * (1 - Number.sigmoid x)

/-- The derivative of an operation on `l` and `r`, whose derivatives are `l'` and `r'`. The larger
operand counts, the left one if they are equal. -/
noncomputable def BinaryOp.forward (op : BinaryOp) (l r l' r' : ℝ) : ℝ :=
  match op with
  | .add => l' + r'
  | .sub => l' - r'
  | .mul => l' * r + l * r'
  | .div => (l' * r - l * r') / r ^ 2
  | .max => open Classical in if r ≤ l then l' else r'

/-- The derivative by variable `k`, by structural recursion. -/
noncomputable def Expression.derivative (ρ : Nat → ℝ) (k : Nat) : Expression ℝ → ℝ
  | const _ => 0
  | var i => if i = k then 1 else 0
  | unary op x => op.slope (x.value ρ) * x.derivative ρ k
  | binary op l r => op.forward (l.value ρ) (r.value ρ) (l.derivative ρ k) (r.derivative ρ k)

theorem Expression.derivative_eq_zero {ρ : Nat → ℝ} {k : Nat} {e : Expression ℝ}
    (h : ¬ e.Mentions k) : e.derivative ρ k = 0 := by
  induction e with
  | const c => rfl
  | var i => exact if_neg h
  | unary op x ih => rw [derivative, ih h, mul_zero]
  | binary op l r ihl ihr =>
      obtain ⟨hl, hr⟩ := not_or.mp h
      rw [derivative, ihl hl, ihr hr]
      cases op <;> simp [BinaryOp.forward]

theorem UnaryOp.derivative_eq_slope (op : UnaryOp) (x : ℝ) :
    op.derivative x (op.apply x) = op.slope x := by
  cases op with
  | sqrt =>
      norm_num [UnaryOp.derivative, UnaryOp.slope, UnaryOp.apply]
      congr 1
      ring
  | _ => norm_num [UnaryOp.derivative, UnaryOp.slope, UnaryOp.apply, pow_two]

/-- The shares that a node hands on are its adjoint times its derivative, sorted by children. -/
theorem Node.shares_sum (ρ : Nat → ℝ) (k : Nat) (e : Nat → Expression ℝ) (a : ℝ) {node : Node ℝ}
    (hnode : ∀ i, node ≠ .var i) :
    ((node.shares (fun c => (e c).value ρ) ((node.expression e).value ρ) a).map
      fun share => share.2 * (e share.1).derivative ρ k).sum =
    a * (node.expression e).derivative ρ k := by
  cases node with
  | const c => simp [Node.shares, Node.expression, Expression.derivative]
  | var i => exact absurd rfl (hnode i)
  | unary op x =>
      simp [Node.shares, Node.expression, Expression.derivative, Expression.value,
        UnaryOp.derivative_eq_slope]
      ring
  | binary op l r =>
      cases op with
      | max =>
          simp only [Node.shares, Node.expression, Expression.derivative, BinaryOp.forward,
            Number.real_le]
          split <;> simp
      | div =>
          simp only [Node.shares, Node.expression, Expression.derivative, BinaryOp.forward,
            List.map_cons, List.map_nil, List.sum_cons, List.sum_nil]
          -- division by zero gives zero on both sides
          obtain hr | hr := eq_or_ne ((e r).value ρ) 0
          · simp [hr]
          · field_simp
            ring
      | _ =>
          simp [Node.shares, Node.expression, Expression.derivative, BinaryOp.forward]
          ring

theorem Node.shares_congr {R : Type} [Number R] {node : Node R} {val val' : Nat → R} (v a : R)
    (h : ∀ c ∈ node.children, val c = val' c) : node.shares val v a = node.shares val' v a := by
  cases node with
  | binary op l r => cases op <;> simp_all [Node.shares, Node.children]
  | _ => simp_all [Node.shares, Node.children]

theorem Node.mem_children_of_shares {R : Type} [Number R] {node : Node R} {val : Nat → R}
    {v a : R} {share : Nat × R} (h : share ∈ node.shares val v a) : share.1 ∈ node.children := by
  cases node with
  | binary op l r =>
      cases op with
      | max =>
          simp only [Node.shares] at h
          split at h <;> simp_all [Node.children]
      | _ =>
          simp only [Node.shares, List.mem_cons, List.not_mem_nil, or_false] at h
          rcases h with rfl | rfl <;> simp [Node.children]
  | _ => simp_all [Node.shares, Node.children]

namespace Sweep

variable {l : List Nat} {D : Nat → ℝ}

/-- What was handed on to node `v` so far. -/
noncomputable def adjoint (s : Sweep ℝ) (v : Nat) : ℝ := s.adjoints.getD v 0.0

/-- What the nodes of a list contribute to a derivative, if node `v` has the derivative `D v`. -/
noncomputable def ahead (D : Nat → ℝ) (l : List Nat) (s : Sweep ℝ) : ℝ :=
  ∑ v ∈ l.toFinset, s.adjoint v * D v

theorem ahead_snoc {i : Nat} (hi : i ∉ l) (s : Sweep ℝ) :
    s.ahead D (l ++ [i]) = s.adjoint i * D i + s.ahead D l := by
  have hinsert : (l ++ [i]).toFinset = insert i l.toFinset := by
    ext
    simp
  rw [ahead, hinsert, Finset.sum_insert (by simpa using hi), ahead]

/-- Shares add up, also where several go to one node. -/
theorem ahead_addAll {shares : List (Nat × ℝ)} (s : Sweep ℝ)
    (h : ∀ share ∈ shares, share.1 ∈ l ∧ share.1 < s.adjoints.size) :
    (s.addAll shares).ahead D l =
      s.ahead D l + (shares.map fun share => share.2 * D share.1).sum := by
  induction shares generalizing s with
  | nil => simp [addAll]
  | cons share shares ih =>
      obtain ⟨c, w⟩ := share
      obtain ⟨⟨hmem, hsize⟩, hrest⟩ := List.forall_mem_cons.mp h
      let s' : Sweep ℝ := { s with adjoints := s.adjoints.modify c (· + w) }
      have hadjoint : ∀ v, s'.adjoint v = s.adjoint v + if v = c then w else 0 := by
        intro v
        simp only [adjoint, Array.getD_eq_getD_getElem?, s', Array.getElem?_modify]
        obtain rfl | hv := eq_or_ne v c
        · simp [hsize]
        · simp [hv, hv.symm]
      have hone : s'.ahead D l = s.ahead D l + w * D c := by
        simp only [ahead, hadjoint, add_mul, Finset.sum_add_distrib, ite_mul, zero_mul,
          Finset.sum_ite_eq', List.mem_toFinset, hmem, if_true]
      change (s'.addAll shares).ahead D l = _
      rw [ih s' (by simpa [s'] using hrest), hone, List.map_cons, List.sum_cons, add_assoc]

@[simp] theorem addAll_size (s : Sweep ℝ) (shares : List (Nat × ℝ)) :
    (s.addAll shares).adjoints.size = s.adjoints.size := by
  induction shares generalizing s with
  | nil => rfl
  | cons share shares ih =>
      exact (ih { s with adjoints := s.adjoints.modify share.1 (· + share.2) }).trans
        Array.size_modify

end Sweep

namespace Graph

variable {g : Graph ℝ} {ρ : Nat → ℝ} {n k : Nat}

/-- The derivative of the formula at node `v`. -/
noncomputable abbrev slopeAt (g : Graph ℝ) (ρ : Nat → ℝ) (k v : Nat) : ℝ :=
  (g.unfold v).derivative ρ k

theorem sweepNode_size (vs : Array ℝ) (s : Sweep ℝ) (i : Nat) :
    (g.sweepNode vs s i).adjoints.size = s.adjoints.size ∧
      (g.sweepNode vs s i).gradient.size = s.gradient.size := by
  unfold sweepNode
  simp only
  split
  · exact ⟨rfl, rfl⟩
  split
  · exact ⟨rfl, rfl⟩
  · exact ⟨rfl, Array.size_modify⟩
  · exact ⟨Sweep.addAll_size .., rfl⟩

/-- A node without adjoint is passed over. -/
theorem sweepNode_zero {vs : Array ℝ} {s : Sweep ℝ} {i : Nat} (h : s.adjoint i = 0) :
    g.sweepNode vs s i = s :=
  if_pos (Number.real_eq.mpr (h.trans (by norm_num)))

theorem sweepNode_var {vs : Array ℝ} {s : Sweep ℝ} {i j : Nat} (h : s.adjoint i ≠ 0)
    (hnode : g.nodes[i]? = some (.var j)) :
    g.sweepNode vs s i = { s with gradient := s.gradient.modify j (· + s.adjoint i) } := by
  refine (if_neg fun h₀ => h ((Number.real_eq.mp h₀).trans (by norm_num))).trans ?_
  rw [hnode]
  rfl

theorem sweepNode_shares {vs : Array ℝ} {s : Sweep ℝ} {i : Nat} {node : Node ℝ}
    (h : s.adjoint i ≠ 0) (hnode : g.nodes[i]? = some node) (hvar : ∀ j, node ≠ .var j) :
    g.sweepNode vs s i =
      s.addAll (node.shares (fun c => vs.getD c 0.0) (vs.getD i 0.0) (s.adjoint i)) := by
  refine (if_neg fun h₀ => h ((Number.real_eq.mp h₀).trans (by norm_num))).trans ?_
  rw [hnode]
  cases node with
  | var j => exact absurd rfl (hvar j)
  | _ => rfl

theorem values_getD (hg : g.WellFormed) (hn : n ≤ g.size) {i : Nat} (hi : i < n) :
    (g.values ρ n).getD i 0.0 = (g.unfold i).value ρ := by
  rw [Array.getD_eq_getD_getElem?, g.values_getElem? hn hi, Option.getD_some,
    hg.valueAt_eq_unfold i (Nat.lt_of_lt_of_le hi hn)]

/-- One turn of the sweep: what node `i` contributes is added to the gradient or handed on to nodes
ahead. -/
theorem sweepNode_ahead (hg : g.WellFormed) (hn : n ≤ g.size) {l : List Nat} {i : Nat} (hi : i < n)
    (hc : ∀ c ∈ g.children i, c ∈ l) (s : Sweep ℝ) (hsize : s.adjoints.size = n)
    (hk : k < s.gradient.size) :
    (g.sweepNode (g.values ρ n) s i).gradient.getD k 0 +
        (g.sweepNode (g.values ρ n) s i).ahead (g.slopeAt ρ k) l =
      s.gradient.getD k 0 + (s.adjoint i * g.slopeAt ρ k i + s.ahead (g.slopeAt ρ k) l) := by
  obtain ⟨node, hnode⟩ : ∃ node, g.nodes[i]? = some node :=
    ⟨_, Array.getElem?_eq_getElem (Nat.lt_of_lt_of_le hi hn)⟩
  have hslope : g.slopeAt ρ k i = (node.expression g.unfold).derivative ρ k := by
    rw [slopeAt, hg.unfold_eq hnode]
  obtain hzero | hzero := eq_or_ne (s.adjoint i) 0
  · rw [sweepNode_zero hzero, hzero, zero_mul, zero_add]
  by_cases hvar : ∃ j, node = .var j
  · -- the adjoint goes to the entry of the variable, which is entry `k` or another
    obtain ⟨j, rfl⟩ := hvar
    rw [sweepNode_var hzero hnode, hslope]
    have hentry : (s.gradient.modify j (· + s.adjoint i)).getD k 0 =
        s.gradient.getD k 0 + s.adjoint i * if j = k then 1 else 0 := by
      simp only [Array.getD_eq_getD_getElem?, Array.getElem?_modify]
      split <;> simp [hk]
    rw [hentry]
    exact add_assoc ..
  · -- the adjoint goes to the children, all of which are ahead
    have hvar' : ∀ j, node ≠ .var j := fun j hj => hvar ⟨j, hj⟩
    have hval : ∀ c ∈ node.children,
        (g.values ρ n).getD c 0.0 = (g.unfold c).value ρ := fun c hcmem =>
      values_getD hg hn (Nat.lt_trans (hg.child_lt hnode hcmem) hi)
    have hinside : ∀ share ∈ node.shares (fun c => (g.unfold c).value ρ)
        ((node.expression g.unfold).value ρ) (s.adjoint i),
        share.1 ∈ l ∧ share.1 < s.adjoints.size := by
      intro share hshare
      have hchild := Node.mem_children_of_shares hshare
      exact ⟨hc _ (by simpa [children, hnode] using hchild),
        hsize.symm ▸ Nat.lt_trans (hg.child_lt hnode hchild) hi⟩
    rw [sweepNode_shares hzero hnode hvar', Node.shares_congr _ _ hval, values_getD hg hn hi,
      hg.unfold_eq hnode, Sweep.ahead_addAll s hinside,
      Node.shares_sum ρ k g.unfold _ hvar', hslope, add_comm (Sweep.ahead ..)]
    rfl

/-- The sweep over nodes in an order where children come first. -/
theorem sweep_gradient (hg : g.WellFormed) (hn : n ≤ g.size) {l : List Nat}
    (hl : ChildrenFirst g l) (hin : ∀ i ∈ l, i < n) (s : Sweep ℝ) (hsize : s.adjoints.size = n)
    (hk : k < s.gradient.size) :
    (l.foldr (fun i s => g.sweepNode (g.values ρ n) s i) s).gradient.getD k 0 =
      s.gradient.getD k 0 + s.ahead (g.slopeAt ρ k) l := by
  induction hl generalizing s with
  | nil => simp [Sweep.ahead]
  | @snoc l i hl hi hc ih =>
      have hstep := sweepNode_ahead (ρ := ρ) hg hn (hin i (by simp)) hc s hsize hk
      rw [List.foldr_append, Sweep.ahead_snoc hi, ← hstep]
      obtain ⟨hadjoints, hgradient⟩ := g.sweepNode_size (g.values ρ n) s i
      exact ih (fun j hj => hin j (by simp [hj])) _ (hadjoints.trans hsize) (hgradient ▸ hk)

theorem sweep_size (vs : Array ℝ) (l : List Nat) (s : Sweep ℝ) :
    (l.foldr (fun i s => g.sweepNode vs s i) s).gradient.size = s.gradient.size := by
  induction l with
  | nil => rfl
  | cons i l ih => exact (g.sweepNode_size vs _ i).2.trans ih

/-- The sweep begins with nothing but the adjoint one at the root. -/
theorem start_ahead {l : List Nat} {root : Nat} (hroot : root ∈ l) (D : Nat → ℝ)
    (gradient : Array ℝ) :
    Sweep.ahead D l ⟨(Array.replicate (root + 1) 0.0).setIfInBounds root 1.0, gradient⟩ =
      D root := by
  have hadjoint : ∀ v, Sweep.adjoint
      ⟨(Array.replicate (root + 1) (0.0 : ℝ)).setIfInBounds root 1.0, gradient⟩ v =
      if v = root then 1 else 0 := by
    intro v
    simp only [Sweep.adjoint, Array.getD_eq_getD_getElem?, Array.getElem?_setIfInBounds,
      Array.getElem?_replicate, Array.size_replicate]
    obtain rfl | hv := eq_or_ne v root
    · norm_num
    · rw [if_neg hv.symm, if_neg hv]
      split <;> norm_num
  simp only [Sweep.ahead, hadjoint, ite_mul, one_mul, zero_mul, Finset.sum_ite_eq',
    List.mem_toFinset, hroot, if_true]

/-- The gradient of a formula, however it shares nodes and as often as variables occur in it, holds
the derivatives of the unfolded expression, and comes with the value of the formula, which is that
of the expression. The entry of a variable that does not occur is zero. -/
theorem gradient_eq_derivatives {fs : List (Formula ℝ)} {f : Formula ℝ} (hg : Recorded g fs)
    (hf : f ∈ fs) (ρ : Nat → ℝ) (n : Nat) :
    g.gradient ρ f n =
        (g.value ρ f, Array.ofFn fun i : Fin n => (g.unfold f.root).derivative ρ i) ∧
      g.value ρ f = (g.unfold f.root).value ρ ∧
      ∀ k < n, ¬ (g.unfold f.root).Mentions k → (g.gradient ρ f n).2[k]? = some 0 := by
  obtain ⟨hwf, hinside⟩ := hg.wellFormed
  have hroot := hinside f hf
  have hgradient : (g.gradient ρ f n).2 =
      Array.ofFn fun i : Fin n => (g.unfold f.root).derivative ρ i := by
    have hsize : (g.gradient ρ f n).2.size = n := by
      rw [gradient, ← Array.foldr_toList, sweep_size, Array.size_replicate]
    refine Array.ext (hsize.trans (Array.size_ofFn).symm) fun k hk _ => ?_
    have hkn : k < n := hsize ▸ hk
    have hsweep := sweep_gradient (k := k) (ρ := ρ) hwf hroot (order_childrenFirst hwf f.root)
      (fun i hi => Nat.lt_succ_of_le (le_of_mem_order hwf hi))
      ⟨(Array.replicate (f.root + 1) 0.0).setIfInBounds f.root 1.0, Array.replicate n 0.0⟩
      (by simp) (by simpa using hkn)
    rw [start_ahead (root_mem_order hwf f.root), Array.foldr_toList] at hsweep
    have hzero : (Array.replicate n (0.0 : ℝ)).getD k 0 = 0 := by
      rw [Array.getD_eq_getD_getElem?, Array.getElem?_replicate, if_pos hkn]
      norm_num
    calc
      (g.gradient ρ f n).2[k] = (g.gradient ρ f n).2.getD k 0 := by
        rw [Array.getD_eq_getD_getElem?, Array.getElem?_eq_getElem hk, Option.getD_some]
      _ = (Array.replicate n (0.0 : ℝ)).getD k 0 + g.slopeAt ρ k f.root := hsweep
      _ = _ := by rw [hzero, zero_add, Array.getElem_ofFn]
  refine ⟨Prod.ext rfl hgradient, hwf.valueAt_eq_unfold f.root hroot, fun k hk hmentions => ?_⟩
  rw [hgradient, Array.getElem?_ofFn, dif_pos hk, Expression.derivative_eq_zero hmentions]

/-- The formula `x * x + x` at `x = 3`, with a variable that it does not mention. -/
theorem gradient_square_add :
    (gradient ⟨#[.var 0, .binary .mul 0 0, .binary .add 1 0]⟩ (fun _ => (3 : ℝ)) ⟨2⟩ 2).2 =
      #[7, 0] := by
  have hg : Recorded (⟨#[.var 0, .binary .mul 0 0, .binary .add 1 0]⟩ : Graph ℝ)
      [⟨2⟩, ⟨1⟩, ⟨0⟩] :=
    ((Recorded.start.var 0).step (.square ⟨0⟩) fun _ h => h).step (.binary .add ⟨1⟩ ⟨0⟩)
      fun _ h => h
  have hunfold : unfold (⟨#[.var 0, .binary .mul 0 0, .binary .add 1 0]⟩ : Graph ℝ) 2 =
      .binary .add (.binary .mul (.var 0) (.var 0)) (.var 0) := by
    simp [unfold, Node.expression]
  rw [(gradient_eq_derivatives hg (.head _) (fun _ => 3) 2).1, hunfold]
  simp [Expression.derivative, BinaryOp.forward, Expression.value, Array.ofFn_succ]
  norm_num

end Graph

end PlaneFigure
