import Mathlib.Data.Set.Card
import Mathlib.Logic.Function.Iterate
import PlaneFigure.Graph.Gradient
import PlaneFigure.Proofs.Graph.Evaluation
import PlaneFigure.Proofs.Graph.Reach
import PlaneFigure.Proofs.Graph.Walk

/-!
What the order of a formula is good for. The walk comes to an end, in a number of turns that is
linear in the number of nodes, and has then met every node below the root once, after its children,
and the root last. So nothing is missing from a table of values when it is looked up, neither when
values are computed along the order nor when adjoints are handed on against it.
-/

namespace PlaneFigure

variable {R : Type}

namespace Graph

variable {g : Graph R} {root i p : Nat} {l before after : List Nat}

/-! ### The loop -/

/-- What the loop of a walk carries: the stack, the marks, and the order so far. -/
structure WalkState where
  stack : List (Nat × Bool)
  seen : Array Bool
  order : Array Nat

/-- One turn of the loop, which takes the top entry off the stack. Without a stack, nothing
changes any more. -/
def turn (g : Graph R) : WalkState → WalkState
  | ⟨[], seen, order⟩ => ⟨[], seen, order⟩
  | ⟨(i, true) :: stack, seen, order⟩ => ⟨stack, seen, order.push i⟩
  | ⟨(i, false) :: stack, seen, order⟩ =>
    if seen[i]? = some false then
      let seen' := seen.setIfInBounds i true
      ⟨g.fresh seen' i ++ (i, true) :: stack, seen', order⟩
    else ⟨stack, seen, order⟩

/-- The loop is begun with the root on the stack, and no node marked. -/
def WalkState.start (root : Nat) : WalkState :=
  ⟨[(root, false)], Array.replicate (root + 1) false, #[]⟩

theorem turn_open {stack : List (Nat × Bool)} {seen : Array Bool} {order : Array Nat}
    (hi : seen[i]? = some false) :
    g.turn ⟨(i, false) :: stack, seen, order⟩ =
      ⟨g.fresh (seen.setIfInBounds i true) i ++ (i, true) :: stack, seen.setIfInBounds i true,
        order⟩ := by
  simp only [turn, if_pos hi]

theorem turn_skip {stack : List (Nat × Bool)} {seen : Array Bool} {order : Array Nat}
    (hi : seen[i]? ≠ some false) :
    g.turn ⟨(i, false) :: stack, seen, order⟩ = ⟨stack, seen, order⟩ := by
  simp only [turn, if_neg hi]

theorem length_children_le (g : Graph R) (i : Nat) : (g.children i).length ≤ 2 := by
  unfold children
  split
  next node _ => cases node <;> simp [Node.children]
  next => simp

theorem length_fresh_le (g : Graph R) (seen : Array Bool) (i : Nat) :
    (g.fresh seen i).length ≤ 2 := by
  simp only [fresh, List.length_map, List.length_reverse]
  exact (List.length_filter_le ..).trans (g.length_children_le i)

theorem countP_fresh (g : Graph R) (seen : Array Bool) (i : Nat) :
    (g.fresh seen i).countP Prod.snd = 0 := by
  rw [List.countP_eq_zero]
  intro x hx
  simp [(mem_fresh.mp hx).2.2]

/-- The loop ends, with the order that the walk gives. A node that is still to be begun costs three
turns at most: it is opened and finished, and puts two children on the stack, of which it pays for
the turns that take them off again. -/
theorem exists_turns (g : Graph R) (stack : List (Nat × Bool)) (seen : Array Bool)
    (order : Array Nat) :
    ∃ n begun seen', (g.walk stack seen order).size = order.size + stack.countP Prod.snd + begun ∧
      n ≤ stack.length + 3 * begun ∧
      g.turn^[n] ⟨stack, seen, order⟩ = ⟨[], seen', g.walk stack seen order⟩ := by
  fun_induction walk g stack seen order with
  | case1 seen order => exact ⟨0, 0, seen, by simp, by simp, rfl⟩
  | case2 i stack seen order ih =>
      obtain ⟨n, begun, seen', hsize, hn, hrun⟩ := ih
      refine ⟨n + 1, begun, seen', ?_, ?_, hrun⟩
      · rw [hsize, Array.size_push, List.countP_cons_of_pos rfl]
        omega
      · rw [List.length_cons]
        omega
  | case3 i stack seen order hi seen' next ih =>
      obtain ⟨n, begun, seen'', hsize, hn, hrun⟩ := ih
      have hset : seen.setIfInBounds i true = seen' :=
        Array.setIfInBounds_def .. ▸ dif_pos (Array.getElem?_eq_some_iff.mp hi).1
      have hfresh : g.fresh seen' i = next.reverse.map (·, false) := rfl
      refine ⟨n + 1, begun + 1, seen'', ?_, ?_, ?_⟩
      · rw [hsize, ← hfresh, List.countP_append, g.countP_fresh]
        simp only [List.countP_cons_of_pos, List.countP_cons_of_neg, Bool.false_eq_true,
          not_false_iff]
        omega
      · have hlength := g.length_fresh_le seen' i
        rw [← hfresh, List.length_append] at hn
        simp only [List.length_cons] at hn ⊢
        omega
      · rw [Function.iterate_succ_apply, turn_open hi, hset, hfresh]
        exact hrun
  | case4 i stack seen order hi ih =>
      obtain ⟨n, begun, seen', hsize, hn, hrun⟩ := ih
      refine ⟨n + 1, begun, seen', ?_, ?_, ?_⟩
      · rw [hsize, List.countP_cons_of_neg (by simp)]
      · rw [List.length_cons]
        omega
      · rw [Function.iterate_succ_apply, turn_skip hi]
        exact hrun

/-- From the root, the loop takes one turn and three for each node at most. -/
theorem turns_start (g : Graph R) (f : Formula R) :
    ∃ n ≤ 3 * g.nodeCount f + 1, ∃ seen,
      g.turn^[n] (WalkState.start f.root) = ⟨[], seen, g.order f.root⟩ := by
  obtain ⟨n, begun, seen, hsize, hn, hrun⟩ :=
    g.exists_turns [(f.root, false)] (Array.replicate (f.root + 1) false) #[]
  have hbegun : g.nodeCount f = begun := by
    simpa [nodeCount, order] using hsize
  exact ⟨n, by simp at hn; omega, seen, hrun⟩

/-! ### The nodes that are met -/

/-- A walk meets only what lies below the entries of its stack. -/
theorem walk_reaches {stack : List (Nat × Bool)} {seen : Array Bool} {order : Array Nat}
    (hstack : ∀ x ∈ stack, g.Reaches root x.1) (horder : ∀ i ∈ order, g.Reaches root i) :
    ∀ i ∈ g.walk stack seen order, g.Reaches root i := by
  fun_induction walk g stack seen order with
  | case1 seen order => exact horder
  | case2 i stack seen order ih =>
      obtain ⟨hi, hstack⟩ := List.forall_mem_cons.mp hstack
      refine ih hstack fun j hj => ?_
      obtain hj | rfl := Array.mem_push.mp hj
      · exact horder j hj
      · exact hi
  | case3 i stack seen order hi seen' next ih =>
      obtain ⟨hroot, hrest⟩ := List.forall_mem_cons.mp hstack
      refine ih (fun x hx => ?_) horder
      obtain hx | hx := List.mem_append.mp hx
      · have hchild : x.1 ∈ g.children i :=
          (mem_fresh.mp (show x ∈ g.fresh seen' i from hx)).1
        exact hroot.trans (.head hchild (.refl g _))
      · obtain rfl | hx := List.mem_cons.mp hx
        · exact hroot
        · exact hrest x hx
  | case4 i stack seen order hi ih => exact ih (List.forall_mem_cons.mp hstack).2 horder

/-- The order holds the nodes that are reached from the root. -/
theorem mem_order_iff (hg : g.WellFormed) : i ∈ (g.order root).toList ↔ g.Reaches root i := by
  constructor
  · intro hi
    have hstart : ∀ x ∈ [(root, false)], g.Reaches root x.1 := by
      simp [Reaches.refl g root]
    have hwalk : i ∈ g.walk [(root, false)] (Array.replicate (root + 1) false) #[] :=
      Array.mem_toList_iff.mp hi
    exact walk_reaches hstart (by simp) i hwalk
  · exact (order_childrenFirst hg root).mem_of_reaches (root_mem_order hg root)

/-- A list of the nodes that are reached, without repetitions, is as long as they are many. -/
theorem ncard_reaches (hl : l.Nodup) (hmem : ∀ i, i ∈ l ↔ g.Reaches root i) :
    {i | g.Reaches root i}.ncard = l.length := by
  have hset : {i | g.Reaches root i} = (l.toFinset : Set Nat) := by
    ext i
    simp only [Set.mem_ofPred_eq, List.coe_toFinset, hmem]
  rw [hset, Set.ncard_coe_finset, List.toFinset_card_of_nodup hl]

theorem ncard_reaches_and (hl : l.Nodup) (hmem : ∀ i, i ∈ l ↔ g.Reaches root i)
    (p : Nat → Bool) : {i | g.Reaches root i ∧ p i}.ncard = l.countP p := by
  have hset : {i | g.Reaches root i ∧ p i} = ((l.filter p).toFinset : Set Nat) := by
    ext i
    simp only [Set.mem_ofPred_eq, List.coe_toFinset, List.mem_filter, hmem]
  rw [hset, Set.ncard_coe_finset, List.toFinset_card_of_nodup (hl.filter p),
    List.countP_eq_length_filter]

theorem nodeCount_eq (hg : g.WellFormed) (f : Formula R) :
    g.nodeCount f = {i | g.Reaches f.root i}.ncard :=
  Array.length_toList.symm.trans
    (ncard_reaches (order_childrenFirst hg f.root).nodup fun _ => mem_order_iff hg).symm

/-- Below the root, all is walked before the root is finished. -/
theorem order_eq_push (hg : g.WellFormed) (root : Nat) :
    ∃ below : Array Nat, g.order root = below.push root := by
  obtain ⟨seen, -, horder⟩ := order_eq_walk hg root
  obtain ⟨seen', hwalk⟩ :=
    g.walk_append ((g.children root).reverse.map (·, false)) [(root, true)] seen #[]
  exact ⟨_, by rw [horder, hwalk, walk, walk]⟩

/-! ### Children and parents -/

/-- The children of a node stand before it. -/
theorem ChildrenFirst.children_before (h : g.ChildrenFirst l) (hl : l = before ++ i :: after) :
    ∀ c ∈ g.children i, c ∈ before := by
  induction h generalizing after with
  | nil => simp at hl
  | @snoc l j _ _ hchildren ih =>
      obtain rfl | ⟨rest, last, rfl⟩ := after.eq_nil_or_concat
      · obtain ⟨rfl, hij⟩ := List.append_inj' hl rfl
        obtain rfl : j = i := by simpa using hij
        exact hchildren
      · rw [List.concat_eq_append, ← List.cons_append, ← List.append_assoc] at hl
        exact ih (List.append_inj' hl rfl).1

/-- The parents of a node stand after it. -/
theorem ChildrenFirst.parents_after (h : g.ChildrenFirst l) (hl : l = before ++ i :: after)
    (hp : p ∈ l) (hi : i ∈ g.children p) : p ∈ after := by
  have hnodup := h.nodup
  obtain ⟨first, last, hsplit⟩ := List.append_of_mem hp
  have hfirst : i ∈ first := h.children_before hsplit i hi
  rw [hl] at hp hnodup
  obtain ⟨-, hcons, hdisjoint⟩ := List.nodup_append.mp hnodup
  obtain hbefore | hlater := List.mem_append.mp hp
  · -- otherwise the node would stand before the parent, and once more after it
    obtain ⟨early, late, rfl⟩ := List.append_of_mem hbefore
    have hi' : i ∈ early :=
      h.children_before (hl.trans (List.append_assoc early (p :: late) _)) i hi
    exact absurd rfl (hdisjoint i (List.mem_append_left _ hi') i (List.mem_cons_self ..))
  · obtain rfl | hlater := List.mem_cons.mp hlater
    · have hself : p ∈ before := h.children_before hl p hi
      exact absurd rfl (hdisjoint p hself p (List.mem_cons_self ..))
    · exact hlater

end Graph

/-! ### Tables of values -/

variable [Number R]

/-- What node `i` adds to the adjoints of its children, with the values that this takes looked up in
a table; nothing if one is missing there. -/
def Node.shares? (table : Nat → Option R) (i : Nat) (a : R) : Node R → Option (List (Nat × R))
  | .const _ => some []
  | .var _ => some []
  | .unary op x => return [(x, a * op.derivative (← table x) (← table i))]
  | .binary .add l r => some [(l, a), (r, a)]
  | .binary .sub l r => some [(l, a), (r, -a)]
  | .binary .mul l r => return [(l, a * (← table r)), (r, a * (← table l))]
  | .binary .div l r => do
    let v ← table r
    return [(l, a / v), (r, -a * (← table l) / (v * v))]
  | .binary .max l r => do
    if Number.le (← table r) (← table l) then return [(l, a)] else return [(r, a)]

namespace Graph

/-- One node of the sweep, with its value and those of its children from a table. -/
def sweepNode? (g : Graph R) (table : Std.HashMap Nat R) (s : Sweep R) (i : Nat) :
    Option (Sweep R) :=
  let a := s.adjoints.getD i 0.0
  if Number.eq a 0.0 then some s
  else match g.nodes[i]? with
    | none => none
    | some (.var k) => some { s with gradient := s.gradient.modify k (· + a) }
    | some node => return s.addAll (← node.shares? (table[·]?) i a)

/-- The value of a formula and its derivatives by the variables `0, …, n - 1`. The table is filled
along the walk, and used on the way back. -/
def gradient? (g : Graph R) (ρ : Nat → R) (f : Formula R) (n : Nat) : Option (R × Array R) := do
  let nodes := (g.order f.root).toList
  let table ← nodes.foldlM (g.evaluateNode ρ) ∅
  let start : Sweep R :=
    { adjoints := (Array.replicate (f.root + 1) 0.0).setIfInBounds f.root 1.0
      gradient := Array.replicate n 0.0 }
  let s ← nodes.reverse.foldlM (g.sweepNode? table) start
  return (← table[f.root]?, s.gradient)

variable {g : Graph R} {ρ : Nat → R} {f : Formula R} {i : Nat} {l : List Nat}

theorem shares?_eq_some {node : Node R} {table : Nat → Option R} {val : Nat → R} {v a : R}
    (hi : table i = some v) (hc : ∀ c ∈ node.children, table c = some (val c)) :
    node.shares? table i a = some (node.shares val v a) := by
  cases node with
  | const c => rfl
  | var k => rfl
  | unary op x => simp [Node.shares?, Node.shares, hi, hc x (by simp [Node.children])]
  | binary op l r =>
      have hl := hc l (by simp [Node.children])
      have hr := hc r (by simp [Node.children])
      cases op with
      | max =>
          simp only [Node.shares?, Node.shares, hl, hr]
          show (if _ then _ else _) = _
          split <;> rfl
      | _ => simp [Node.shares?, Node.shares, hl, hr]

/-- A node with all values at hand hands on what it should. -/
theorem sweepNode?_eq_some {table : Std.HashMap Nat R} {vs : Array R} (hi : i < g.size)
    (hself : table[i]? = some (vs.getD i 0.0))
    (hchildren : ∀ c ∈ g.children i, table[c]? = some (vs.getD c 0.0)) (s : Sweep R) :
    g.sweepNode? table s i = some (g.sweepNode vs s i) := by
  have hnode := Array.getElem?_eq_getElem hi
  simp only [children, hnode] at hchildren
  simp only [sweepNode?, sweepNode, hnode]
  split
  · rfl
  · have hshares := shares?_eq_some (a := s.adjoints.getD i 0.0) hself hchildren
    generalize g.nodes[i] = node at hshares
    cases node with
    | var k => rfl
    | _ => exact congrArg (Option.bind · fun shares => some (s.addAll shares)) hshares

/-- The way back, on which nothing is missing. -/
theorem sweepNodes {table : Std.HashMap Nat R} {vs : Array R}
    (h : ∀ i ∈ l, ∀ s, g.sweepNode? table s i = some (g.sweepNode vs s i)) (s : Sweep R) :
    l.reverse.foldlM (g.sweepNode? table) s = some (l.foldr (fun i s => g.sweepNode vs s i) s) := by
  induction l using List.reverseRecOn generalizing s with
  | nil => rfl
  | append_singleton l i ih =>
      rw [List.reverse_concat, List.foldlM_cons, h i (by simp), List.foldr_concat]
      exact ih (fun j hj => h j (by simp [hj])) _

/-- No value is missing on the way back. -/
theorem gradient?_eq_some (hg : g.WellFormed) (hf : f.root < g.size) (n : Nat) :
    g.gradient? ρ f n = some (g.gradient ρ f n) := by
  have horder := order_childrenFirst hg f.root
  have hinside : ∀ i ∈ (g.order f.root).toList, i < f.root + 1 := fun i hi =>
    Nat.lt_succ_of_le (le_of_mem_order hg hi)
  obtain ⟨table, htable, hvalues⟩ := evaluateNodes (ρ := ρ) hg horder fun i hi =>
    Nat.lt_of_lt_of_le (hinside i hi) hf
  have hlookup : ∀ i ∈ (g.order f.root).toList,
      table[i]? = some ((g.values ρ (f.root + 1)).getD i 0.0) := by
    intro i hi
    rw [hvalues i hi, Array.getD_eq_getD_getElem?, g.values_getElem? hf (hinside i hi),
      Option.getD_some]
  have hsweep := sweepNodes (g := g) (fun i hi => sweepNode?_eq_some
    (Nat.lt_of_lt_of_le (hinside i hi) hf) (hlookup i hi)
    fun c hc => hlookup c (horder.children_mem i hi c hc))
  simp only [gradient?, htable, Option.bind_eq_bind, Option.bind_some, hsweep,
    hlookup f.root (root_mem_order hg f.root)]
  rw [Array.foldr_toList]
  rfl

/-- The walk of a formula ends, and the order that it leaves is complete, has no repetitions, and is
topological: every node stands after its children, the root at the end, and on the way back every
node is met after its parents. So the nodes are counted right, and both evaluation and gradients
find all values that they look up. -/
theorem order_traverses (hg : g.WellFormed) (hf : f.root < g.size) :
    (∃ n seen, n ≤ 3 * g.nodeCount f + 1 ∧
      g.turn^[n] (WalkState.start f.root) = ⟨[], seen, g.order f.root⟩) ∧
    (g.order f.root).toList.Nodup ∧
    (∀ i, i ∈ (g.order f.root).toList ↔ g.Reaches f.root i) ∧
    (∀ before i after, (g.order f.root).toList = before ++ i :: after →
      ∀ c ∈ g.children i, c ∈ before) ∧
    (g.order f.root).toList.getLast? = some f.root ∧
    g.nodeCount f = {i | g.Reaches f.root i}.ncard ∧
    (∀ visited i rest, (g.order f.root).toList.reverse = visited ++ i :: rest →
      ∀ p, g.Reaches f.root p → i ∈ g.children p → p ∈ visited) ∧
    ∀ ρ, g.evaluate? ρ f = some (g.value ρ f) ∧
      ∀ n, g.gradient? ρ f n = some (g.gradient ρ f n) := by
  have horder := order_childrenFirst hg f.root
  refine ⟨?_, horder.nodup, fun i => mem_order_iff hg, fun before i after hsplit =>
    horder.children_before hsplit, ?_, nodeCount_eq hg f, fun visited i rest hsplit p hp hi => ?_,
    fun ρ => ⟨evaluate?_eq_some hg hf, gradient?_eq_some hg hf⟩⟩
  · obtain ⟨n, hn, seen, hrun⟩ := g.turns_start f
    exact ⟨n, seen, hn, hrun⟩
  · obtain ⟨below, hbelow⟩ := order_eq_push hg f.root
    simp [hbelow]
  · have hforward : (g.order f.root).toList = rest.reverse ++ i :: visited.reverse := by
      simpa using congrArg List.reverse hsplit
    have hafter := horder.parents_after hforward ((mem_order_iff hg).mpr hp) hi
    exact List.mem_reverse.mp hafter

/-- In `x * x + x`, the variable has two parents. On the way back it is met after both, when they
have handed on their shares. -/
theorem order_traverses_square_add :
    let g : Graph Float := ⟨#[.var 0, .binary .mul 0 0, .binary .add 1 0]⟩
    {i | g.Reaches 2 i}.ncard = 3 ∧
      (∀ visited rest, (g.order 2).toList.reverse = visited ++ 0 :: rest →
        1 ∈ visited ∧ 2 ∈ visited) ∧
      g.evaluate? (fun _ => 3.0) ⟨2⟩ = some 12.0 ∧
      g.gradient? (fun _ => 3.0) ⟨2⟩ 1 = some (12.0, #[7.0]) := by
  intro g
  have hg : Recorded g [⟨2⟩, ⟨1⟩, ⟨0⟩] :=
    ((Recorded.start.var 0).step (.square ⟨0⟩) fun _ h => h).step (.binary .add ⟨1⟩ ⟨0⟩)
      fun _ h => h
  have horder : g.order 2 = #[0, 1, 2] := by
    simp [g, order, walk, children, Node.children]
  obtain ⟨-, -, -, -, -, hcount, hparents, hvalues⟩ :=
    order_traverses (f := ⟨2⟩) hg.wellFormed.1 (hg.wellFormed.2 _ (.head _))
  obtain ⟨hvalue, hgradient⟩ := hvalues fun _ => 3.0
  have htwo : g.Reaches 2 2 := .refl g 2
  have hone : g.Reaches 2 1 := .head (c := 1) (by decide) (.refl g 1)
  refine ⟨hcount.symm.trans (by simp [nodeCount, horder]), fun visited rest hsplit =>
    ⟨hparents visited 0 rest hsplit 1 hone (by decide),
      hparents visited 0 rest hsplit 2 htwo (by decide)⟩, hvalue.trans ?_,
    (hgradient 1).trans ?_⟩
  · decide +kernel
  · simp only [gradient, horder]
    decide +kernel

end Graph

end PlaneFigure
