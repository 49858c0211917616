import Mathlib.Order.Interval.Finset.Nat
import PlaneFigure.Proofs.Graph.Recorded
import PlaneFigure.Proofs.Graph.Rewriting

/-!
How large a formula can become when it is simplified. A node is recorded for each node of the
original, and a second one for a sine; constants and variables stay where they are. What a simplified
formula reaches are these nodes, so there are not more of them, however much is shared.
-/

namespace PlaneFigure

variable {R : Type}

def Node.isSine : Node R → Bool
  | .unary .sin _ => true
  | _ => false

/-- How many nodes are recorded for a node when it is simplified, at most: a sine may become a
negated one. -/
def Node.weight : Node R → Nat
  | .const _ => 0
  | .var _ => 0
  | .unary .sin _ => 2
  | .unary _ _ => 1
  | .binary _ _ _ => 1

theorem Node.weight_add_leaf (node : Node R) :
    node.weight + (if node.children.isEmpty then 1 else 0) = 1 + if node.isSine then 1 else 0 := by
  cases node with
  | unary op x => cases op <;> rfl
  | _ => rfl

namespace Graph

/-- Whether node `i` is a sine. -/
def isSine (g : Graph R) (i : Nat) : Bool := (g.nodes[i]?).any Node.isSine

/-- The weight of node `i`. -/
def weight (g : Graph R) (i : Nat) : Nat := (g.nodes[i]?).elim 0 Node.weight

/-- Whether node `i` has no children. -/
def isLeaf (g : Graph R) (i : Nat) : Bool := (g.children i).isEmpty

/-- The weights of nodes and the leaves among them are as many as the nodes and the sines. -/
theorem weights_add_leaves {g : Graph R} {s : List Nat} (hs : ∀ i ∈ s, i < g.size) :
    (s.map g.weight).sum + s.countP g.isLeaf = s.length + s.countP g.isSine := by
  induction s with
  | nil => rfl
  | cons i s ih =>
      obtain ⟨hi, hs⟩ := List.forall_mem_cons.mp hs
      have hnode := Array.getElem?_eq_getElem hi
      have hi : g.weight i + (if g.isLeaf i then 1 else 0) = 1 + if g.isSine i then 1 else 0 := by
        simp only [weight, isLeaf, isSine, children, hnode]
        exact Node.weight_add_leaf _
      have hrest := ih hs
      simp only [List.map_cons, List.sum_cons, List.countP_cons, List.length_cons]
      omega

variable [Number R] {g h : Graph R} {fs : List (Formula R)} {how : RuleSet} {op : UnaryOp} {bop : BinaryOp}
  {f x l r : Formula R} {i j n root : Nat} {done : Array Nat} {s : List Nat} {P : Nat → Prop}

/-! ### What is recorded -/

theorem unary_size (op : UnaryOp) (x : Formula R) (g : Graph R) :
    (unary op x g).2.size = g.size + 1 := by
  unfold unary
  split <;> exact push_size g _

theorem binary_size (op : BinaryOp) (l r : Formula R) (g : Graph R) :
    (binary op l r g).2.size = g.size + 1 := by
  unfold binary
  split <;> exact push_size g _

/-- For an operation on one operand, as many nodes are recorded as it weighs. -/
theorem simplifyUnary_size (op : UnaryOp) (x : Formula R) (g : Graph R) :
    (simplifyUnary op x g).2.size ≤ g.size + (Node.unary (R := R) op x.root).weight := by
  have hpos : 1 ≤ (Node.unary (R := R) op x.root).weight := by
    cases op <;> simp [Node.weight]
  unfold simplifyUnary
  split
  next => exact Nat.le_add_right ..
  next y _ =>
    show (unary .neg (unary .sin y g).1 (unary .sin y g).2).2.size ≤ g.size + 2
    rw [unary_size, unary_size]
  next y _ => exact (unary_size .cos y g).trans_le (Nat.add_le_add_left hpos _)
  next => exact (unary_size _ x g).trans_le (Nat.add_le_add_left hpos _)

theorem simplifyBinary_size (how : RuleSet) (op : BinaryOp) (l r : Formula R) (g : Graph R) :
    (simplifyBinary how op l r g).2.size ≤ g.size + 1 := by
  obtain heq | heq | heq := simplifyBinary_cases how op l r g <;> rw [heq]
  · exact Nat.le_succ _
  · exact Nat.le_succ _
  · exact (binary_size op l r g).le

theorem simplifyNode_size (how : RuleSet) (done : Array Nat) (i : Nat) (h : Graph R) :
    (simplifyNode how done i h).2.size ≤ h.size + h.weight i := by
  unfold simplifyNode
  split
  next op x hnode =>
    have hweight : h.weight i = (Node.unary (R := R) op (done.getD x x)).weight := by
      cases op <;> simp [weight, hnode, Node.weight]
    rw [hweight]
    exact simplifyUnary_size op _ h
  next op l r hnode =>
    have hweight : h.weight i = 1 := by simp [weight, hnode, Node.weight]
    rw [hweight]
    exact simplifyBinary_size how op _ _ h
  next => exact Nat.le_add_right ..

/-- The nodes of a list make the graph grow by no more than their weights. -/
theorem size_foldl_le (how : RuleSet) (hg : g.WellFormed) (hn : n ≤ g.size)
    (hs : g.ChildrenFirst s) (hlt : ∀ i ∈ s, i < n) :
    (s.foldl (simplifyStep how) (Array.range n, g)).2.size ≤ g.size + (s.map g.weight).sum := by
  refine Simplifying.along (P := fun s _ h => h.size ≤ g.size + (s.map g.weight).sum) how hg hn
    (Nat.le_add_right ..) (fun {s i done h} hnext ih => ?_) hs hlt
  have hstep := simplifyNode_size how done i h
  have hweight : h.weight i = g.weight i := by rw [weight, weight, hnext.getElem?_eq]
  show (simplifyNode how done i h).2.size ≤ _
  simp only [List.map_append, List.map_cons, List.map_nil, List.sum_append, List.sum_cons,
    List.sum_nil]
  omega

/-! ### What is reached -/

/-- No child of a node with the property is without it, and no node to be recorded is. -/
structure Closed (P : Nat → Prop) (h : Graph R) : Prop where
  later : ∀ i, h.size ≤ i → P i
  children : ∀ i, P i → ∀ c ∈ h.children i, P c

omit [Number R] in
theorem Closed.of_reaches (hc : Closed P h) (hi : P i) (hij : h.Reaches i j) : P j :=
  hij.inherit hc.children hi

/-- A formula that is recorded in a closed graph and has the property. -/
structure Within (P : Nat → Prop) (f : Formula R) (h : Graph R) : Prop where
  closed : Closed P h
  root : P f.root

omit [Number R] in
theorem push_within (hc : Closed P h) {node : Node R} (hnode : ∀ c ∈ node.children, P c) :
    Within P (push node h).1 (push node h).2 := by
  refine ⟨⟨fun i hi => ?_, fun i hi c hchild => ?_⟩, hc.later h.size (Nat.le_refl _)⟩
  · rw [push_size] at hi
    exact hc.later i (Nat.le_of_succ_le hi)
  · obtain hold | ⟨-, hnew⟩ := mem_children_push hchild
    · exact hc.children i hi c hold
    · exact hnode c hnew

theorem unary_within (op : UnaryOp) (hc : Closed P h) (hx : P x.root) :
    Within P (unary op x h).1 (unary op x h).2 := by
  unfold unary
  split
  · exact push_within hc (by simp [Node.children])
  · exact push_within hc (by simpa [Node.children] using hx)

theorem binary_within (op : BinaryOp) (hc : Closed P h) (hl : P l.root) (hr : P r.root) :
    Within P (binary op l r h).1 (binary op l r h).2 := by
  unfold binary
  split
  · exact push_within hc (by simp [Node.children])
  · exact push_within hc (by simp [Node.children, hl, hr])

theorem simplifyUnary_within (op : UnaryOp) (hc : Closed P h) (hx : P x.root) :
    Within P (simplifyUnary op x h).1 (simplifyUnary op x h).2 := by
  have hbelow : ∀ {y : Formula R}, h.negated? x = some y → P y.root := fun hneg =>
    hc.children x.root hx _ ((mem_children (negated?_eq_some hneg)).mpr (List.mem_singleton_self _))
  unfold simplifyUnary
  split
  next y hneg => exact ⟨hc, hbelow hneg⟩
  next y hneg =>
    have hsin := unary_within .sin hc (hbelow hneg)
    exact unary_within .neg hsin.closed hsin.root
  next y hneg => exact unary_within .cos hc (hbelow hneg)
  next => exact unary_within _ hc hx

theorem simplifyBinary_within (how : RuleSet) (op : BinaryOp) (hc : Closed P h) (hl : P l.root)
    (hr : P r.root) :
    Within P (simplifyBinary how op l r h).1 (simplifyBinary how op l r h).2 := by
  obtain heq | heq | heq := simplifyBinary_cases how op l r h <;> rw [heq]
  · exact ⟨hc, hl⟩
  · exact ⟨hc, hr⟩
  · exact binary_within op hc hl hr

theorem simplifyNode_within (how : RuleSet) (hc : Closed P h)
    (hchildren : ∀ c ∈ h.children i, P (done.getD c c)) (hleaf : h.children i = [] → P i) :
    Within P (simplifyNode how done i h).1 (simplifyNode how done i h).2 := by
  unfold simplifyNode
  split
  next op x hnode =>
    exact simplifyUnary_within op hc
      (hchildren x ((mem_children hnode).mpr (List.mem_singleton_self x)))
  next op l r hnode =>
    exact simplifyBinary_within how op hc (hchildren l ((mem_children hnode).mpr (.head _)))
      (hchildren r ((mem_children hnode).mpr (.tail _ (.head _))))
  next hunary hbinary =>
    refine ⟨hc, hleaf ?_⟩
    cases hnode : h.nodes[i]? with
    | none => simp [Graph.children, hnode]
    | some node => cases node <;> simp_all [Graph.children, Node.children]

/-- Node `i` is a leaf among those of `l`, or was recorded on top of `g`. -/
def Accounted (g : Graph R) (l : List Nat) (i : Nat) : Prop :=
  i ∈ l ∧ g.children i = [] ∨ g.size ≤ i

omit [Number R] in
theorem accounted_closed (g : Graph R) (l : List Nat) : Closed (g.Accounted l) g where
  later _ hi := .inr hi
  children i hi c hc := by
    obtain ⟨-, hleaf⟩ | hout := hi
    · simp [hleaf] at hc
    · have hnone : g.nodes[i]? = none := Array.getElem?_eq_none hout
      simp [Graph.children, hnone] at hc

theorem accounted_snoc {l : List Nat} (hnext : Simplifying.Next how g n s i done h) (hi : i ∈ l)
    (hclosed : Closed (g.Accounted l) h) (hdone : ∀ j ∈ s, g.Accounted l (done.getD j j)) :
    Within (g.Accounted l) (simplifyNode how done i h).1 (simplifyNode how done i h).2 := by
  have hsame : h.children i = g.children i := by
    rw [children, children, hnext.getElem?_eq]
  exact simplifyNode_within how hclosed
    (fun c hc => hdone c (hnext.children c (hsame ▸ hc))) fun hleaf => .inl ⟨hi, hsame ▸ hleaf⟩

/-- What the nodes become, and all below it, is accounted for. -/
theorem foldl_accounted (how : RuleSet) (hg : g.WellFormed) (hn : n ≤ g.size)
    (hs : g.ChildrenFirst s) (hlt : ∀ i ∈ s, i < n) {l : List Nat} (hl : ∀ i ∈ s, i ∈ l) :
    let m := s.foldl (simplifyStep how) (Array.range n, g)
    Closed (g.Accounted l) m.2 ∧ ∀ i ∈ s, g.Accounted l (m.1.getD i i) := by
  refine Simplifying.along (P := fun s done h => (∀ i ∈ s, i ∈ l) →
    Closed (g.Accounted l) h ∧ ∀ i ∈ s, g.Accounted l (done.getD i i)) how hg hn
    (fun _ => ⟨accounted_closed g l, nofun⟩) (fun {s i done h} hnext ih hl => ?_) hs hlt hl
  obtain ⟨hl, hi⟩ := List.forall_mem_append.mp hl
  obtain ⟨hclosed, hdone⟩ := ih hl
  have hnode := accounted_snoc hnext (hi i (List.mem_singleton_self i)) hclosed hdone
  refine ⟨hnode.closed, List.forall_mem_append.mpr ⟨fun j hj => ?_, fun j hj => ?_⟩⟩
  · rw [hnext.getD_before hj]
    exact hdone j hj
  · obtain rfl := List.mem_singleton.mp hj
    rw [hnext.getD_self]
    exact hnode.root

/-! ### The bound -/

/-- A node that a simplified formula reaches is a leaf of the original or was recorded for it. -/
theorem foldl_nodeCount (how : RuleSet) (hg : g.WellFormed) (hn : n ≤ g.size)
    (hs : g.ChildrenFirst s) (hlt : ∀ i ∈ s, i < n) (hroot : root ∈ s) :
    let m := s.foldl (simplifyStep how) (Array.range n, g)
    m.2.nodeCount ⟨m.1.getD root root⟩ ≤ s.length + s.countP g.isSine := by
  intro m
  have hsim : Simplifying how g n m.1 m.2 := (Simplifying.start how hg hn).run hn hlt
  obtain ⟨hclosed, hdone⟩ : Closed (g.Accounted s) m.2 ∧ ∀ i ∈ s, g.Accounted s (m.1.getD i i) :=
    foldl_accounted how hg hn hs hlt fun i hi => hi
  have hgrowth : m.2.size ≤ g.size + (s.map g.weight).sum := size_foldl_le how hg hn hs hlt
  have hweights := weights_add_leaves fun i hi => Nat.lt_of_lt_of_le (hlt i hi) hn
  let leaves := (s.filter g.isLeaf).toFinset
  have hsub : {i | m.2.Reaches (m.1.getD root root) i} ⊆
      ((leaves ∪ Finset.Ico g.size m.2.size : Finset Nat) : Set Nat) := by
    intro i hi
    have hin : i < m.2.size :=
      Nat.lt_of_le_of_lt (hi.le hsim.wellFormed) (hsim.root_lt root (hlt root hroot))
    obtain ⟨his, hleaf⟩ | hnew := hclosed.of_reaches (hdone root hroot) hi
    · simp [leaves, his, isLeaf, hleaf]
    · simp [hnew, hin]
  calc m.2.nodeCount ⟨m.1.getD root root⟩
      = {i | m.2.Reaches (m.1.getD root root) i}.ncard := nodeCount_eq hsim.wellFormed _
    _ ≤ (leaves ∪ Finset.Ico g.size m.2.size).card := by
        rw [← Set.ncard_coe_finset]
        exact Set.ncard_le_ncard hsub (Finset.finite_toSet _)
    _ ≤ leaves.card + (Finset.Ico g.size m.2.size).card := Finset.card_union_le ..
    _ ≤ s.countP g.isLeaf + (m.2.size - g.size) := by
        rw [Nat.card_Ico, List.countP_eq_length_filter]
        exact Nat.add_le_add_right (List.toFinset_card_le _) _
    _ ≤ s.length + s.countP g.isSine := by omega

theorem foldl_growth (how : RuleSet) (hg : g.WellFormed) (hn : n ≤ g.size)
    (hs : g.ChildrenFirst s) (hlt : ∀ i ∈ s, i < n) :
    (s.foldl (simplifyStep how) (Array.range n, g)).2.size ≤
      g.size + (s.length + s.countP g.isSine) := by
  have hgrowth := size_foldl_le how hg hn hs hlt
  have hweights := weights_add_leaves fun i hi => Nat.lt_of_lt_of_le (hlt i hi) hn
  omega

/-- However the nodes of a formula are ordered, children first, simplifying them in this order keeps
to the bound and gives the same expression. -/
theorem after_bounded (how : RuleSet) (hg : g.WellFormed) (hf : f.root < g.size)
    (hs : g.ChildrenFirst s) (hmem : ∀ i, i ∈ s ↔ g.Reaches f.root i) :
    let bound := g.nodeCount f + {i | g.Reaches f.root i ∧ g.isSine i}.ncard
    let m := Memo.after how g (f.root + 1) s
    m.graph.nodeCount (m.formula f) ≤ bound ∧ m.graph.size ≤ g.size + bound ∧
      m.graph.unfold (m.formula f).root = (g.unfold f.root).simplify how := by
  have hlt : ∀ i ∈ s, i < f.root + 1 := fun i hi =>
    Nat.lt_succ_of_le (((hmem i).mp hi).le hg)
  have hself : f.root ∈ s := (hmem f.root).mpr (.refl g _)
  rw [nodeCount_eq hg, ncard_reaches hs.nodup hmem, ncard_reaches_and hs.nodup hmem]
  exact ⟨foldl_nodeCount how hg hf hs hlt hself, foldl_growth how hg hf hs hlt,
    Unfolding.run how hg hs hlt hf f.root hself⟩

/-- A simplified formula has at most one node more for each sine of the original, and no more nodes
than this are recorded: every node is rewritten once, however often it is used. This is so for
the order of the walk and for the recursion that looks up what it has rewritten, and both
give the same expression. -/
theorem simplify_nodeCount (hg : Recorded g fs) (hf : f ∈ fs) (how : RuleSet) :
    let bound := g.nodeCount f + {i | g.Reaches f.root i ∧ g.isSine i}.ncard
    let s := simplify how f g
    let m := rewriteFormula how f g
    (s.2.nodeCount s.1 ≤ bound ∧ s.2.size ≤ g.size + bound) ∧
      (m.graph.nodeCount (m.formula f) ≤ bound ∧ m.graph.size ≤ g.size + bound) ∧
      (m.keys.Nodup ∧ ∀ i, i ∈ m.keys ↔ g.Reaches f.root i) ∧
      m.graph.unfold (m.formula f).root = s.2.unfold s.1.root := by
  obtain ⟨hwf, hinside⟩ := hg.wellFormed
  have hroot := hinside f hf
  intro bound s m
  have hs : s = _ := simplify_eq_after how f g
  obtain ⟨hcount, hsize, hunfold⟩ := after_bounded how hwf hroot
    (order_childrenFirst hwf f.root) fun i => mem_order_iff hwf
  obtain ⟨keys, hm, hfirst, hmem⟩ : ∃ keys, m = Memo.after how g (f.root + 1) keys ∧ _ :=
    rewriteFormula_eq_after hwf hroot how
  obtain ⟨hcount', hsize', hunfold'⟩ := after_bounded how hwf hroot hfirst hmem
  rw [hs, hm]
  exact ⟨⟨hcount, hsize⟩, ⟨hcount', hsize'⟩, ⟨hfirst.nodup, hmem⟩, hunfold'.trans hunfold.symm⟩

/-- In the sum of `-x` and its sine, the negation is used twice. The negated sine takes a node more
than the sine did. -/
theorem simplify_nodeCount_negation_sine :
    let g : Graph Float :=
      ⟨#[.var 0, .unary .neg 0, .unary .sin 1, .binary .add 2 1]⟩
    let s := simplify .trig ⟨3⟩ g
    g.nodeCount ⟨3⟩ = 4 ∧ {i | g.Reaches 3 i ∧ g.isSine i}.ncard = 1 ∧
      s.2.nodeCount s.1 ≤ 5 ∧ s.2.size ≤ 9 ∧
      (rewriteFormula .trig ⟨3⟩ g).keys.Nodup := by
  intro g
  have hhead : ∀ {y : Formula Float} {ys}, ∀ x ∈ [y], x ∈ y :: ys := fun x hx =>
    List.mem_cons.mpr (.inl (List.mem_singleton.mp hx))
  have hg : Recorded g [⟨3⟩, ⟨2⟩, ⟨1⟩, ⟨0⟩] :=
    (((Recorded.start.var 0).step (.unary .neg ⟨0⟩) hhead).step (.unary .sin ⟨1⟩) hhead).step
      (.binary .add ⟨2⟩ ⟨1⟩) fun x hx =>
        show x ∈ [⟨2⟩, ⟨1⟩] ++ [⟨0⟩] from List.mem_append_left _ hx
  have horder : g.order 3 = #[0, 1, 2, 3] := by
    simp [g, order, walk, children, Node.children]
  have hnodes : g.nodeCount ⟨3⟩ = 4 := by simp [nodeCount, horder]
  have hsines : {i | g.Reaches 3 i ∧ g.isSine i}.ncard = 1 := by
    rw [ncard_reaches_and (order_childrenFirst hg.wellFormed.1 3).nodup fun i =>
      mem_order_iff hg.wellFormed.1, horder]
    rfl
  obtain ⟨⟨hcount, hsize⟩, -, ⟨hnodup, -⟩, -⟩ := simplify_nodeCount hg (.head _) .trig
  rw [hnodes, hsines] at hcount hsize
  exact ⟨hnodes, hsines, hcount, hsize, hnodup⟩

end Graph

end PlaneFigure
