import PlaneFigure.Proofs.Graph.NormalForm
import PlaneFigure.Proofs.Graph.Traversal

/-!
Formulas up to the numbers of their nodes. Simplification records a normal formula again, node by node
and with the same sharing: no rule applies, so every operation is kept, over the new copies of its
operands.
-/

namespace PlaneFigure

variable {R : Type}

/-- The node over other children. -/
def Node.map (φ : Nat → Nat) : Node R → Node R
  | .const c => .const c
  | .var i => .var i
  | .unary op x => .unary op (φ x)
  | .binary op l r => .binary op (φ l) (φ r)

theorem Node.map_congr {φ ψ : Nat → Nat} {node : Node R} (h : ∀ c ∈ node.children, φ c = ψ c) :
    node.map φ = node.map ψ := by
  cases node <;> simp_all [Node.map, Node.children]

theorem Node.map_of_leaf {φ : Nat → Nat} {node : Node R} (h : node.children = []) :
    node.map φ = node := by
  cases node <;> simp_all [Node.map, Node.children]

theorem Node.expression_congr {e e' : Nat → Expression R} {node : Node R}
    (h : ∀ c ∈ node.children, e c = e' c) : node.expression e = node.expression e' := by
  cases node <;> simp_all [Node.expression, Node.children]

namespace Graph

/-- The nodes of `g` below `i` stand in `h` at the places that `φ` says, no two at one place, and
each over the same children. -/
structure Renames (φ : Nat → Nat) (g : Graph R) (i : Nat) (h : Graph R) : Prop where
  injective : ∀ j k, g.Reaches i j → g.Reaches i k → φ j = φ k → j = k
  node : ∀ j, g.Reaches i j → h.nodes[φ j]? = (g.nodes[j]?).map (Node.map φ)

variable [Number R] {g h : Graph R} {how : RuleSet} {op : UnaryOp} {bop : BinaryOp}
  {f x l r : Formula R} {i n : Nat} {done : Array Nat} {node : Node R} {s : List Nat}

/-- Below something normal, all is normal. -/
theorem normal_of_reaches (hg : g.WellFormed) {j : Nat} (hij : g.Reaches i j)
    (h : (g.unfold i).Normal how) : (g.unfold j).Normal how :=
  hij.unfold hg (Expression.normal_hereditary how) h

/-! ### Operations to which no rule applies -/

theorem simplifyUnary_eq_unary (h : op.HasSymmetry → g.negated? x = none) :
    simplifyUnary op x g = unary op x g := by
  unfold simplifyUnary
  cases hneg : g.negated? x with
  | none => cases op <;> rfl
  | some y => cases op <;> simp_all [UnaryOp.HasSymmetry]

theorem simplifyBinary_eq_binary (hg : g.WellFormed) (hl : l.root < g.size) (hr : r.root < g.size)
    (h : ¬ Expression.Neutralized how bop (g.unfold l.root) (g.unfold r.root)) :
    simplifyBinary how bop l r g = binary bop l r g := by
  unfold simplifyBinary
  cases how with
  | trig => cases bop <;> rfl
  | all =>
      simp only [Expression.Neutralized, isConst_unfold hg hl, isConst_unfold hg hr] at h
      cases bop <;> simp_all

theorem simplifyNode_leaf (hnode : h.nodes[i]? = some node) (hleaf : node.children = []) :
    simplifyNode how done i h = (⟨i⟩, h) := by
  simp only [simplifyNode, hnode]
  cases node <;> simp_all [Node.children]

/-- An operation that is normal over what its operands have become is recorded over these. -/
theorem simplifyNode_eq_push (hh : h.WellFormed) (hnode : h.nodes[i]? = some node)
    (hinside : ∀ c ∈ node.children, done.getD c c < h.size) (hop : node.children ≠ [])
    (hnormal : (node.expression fun c => h.unfold (done.getD c c)).Normal how) :
    simplifyNode how done i h = push (node.map fun c => done.getD c c) h := by
  simp only [simplifyNode, hnode]
  cases node with
  | const c => exact absurd rfl hop
  | var k => exact absurd rfl hop
  | unary op x =>
      obtain ⟨-, hconst, hneg⟩ := hnormal
      let x' : Formula R := ⟨done.getD x x⟩
      have hx : x'.root < h.size := hinside x (by simp [Node.children])
      have hconst' : h.const? x' = none := (const?_unfold hh hx).symm.trans hconst
      have hneg' : op.HasSymmetry → h.negated? x' = none := fun hop =>
        Option.map_eq_none_iff.mp ((negated?_unfold hh hx).symm.trans (hneg hop))
      exact (simplifyUnary_eq_unary hneg').trans (unary_eq_push hconst')
  | binary op l r =>
      obtain ⟨-, -, hconst, hneutral⟩ := hnormal
      let l' : Formula R := ⟨done.getD l l⟩
      let r' : Formula R := ⟨done.getD r r⟩
      have hl : l'.root < h.size := hinside l (by simp [Node.children])
      have hr : r'.root < h.size := hinside r (by simp [Node.children])
      have hconst' : h.const? l' = none ∨ h.const? r' = none :=
        hconst.imp (const?_unfold hh hl).symm.trans (const?_unfold hh hr).symm.trans
      exact (simplifyBinary_eq_binary hh hl hr hneutral).trans (binary_eq_push hconst')

/-! ### The second simplification -/

/-- What is known when the nodes of `l` have been simplified, all of them normal before: each has
become a node of its own over what its children have become. -/
structure Repeating (g : Graph R) (l : List Nat) (done : Array Nat) (h : Graph R) : Prop where
  leaf : ∀ i ∈ l, g.children i = [] → done.getD i i = i
  fresh : ∀ i ∈ l, g.children i ≠ [] → g.size ≤ done.getD i i
  injective : ∀ i ∈ l, ∀ j ∈ l, done.getD i i = done.getD j j → i = j
  node : ∀ i ∈ l, h.nodes[done.getD i i]? = (g.nodes[i]?).map (Node.map fun c => done.getD c c)

namespace Repeating

/-- A normal operation is recorded anew. -/
theorem node_eq_push (hnext : Simplifying.Next how g n s i done h) (hu : Unfolding how g s done h)
    (hg : g.WellFormed) (hnormal : ∀ j ∈ s ++ [i], (g.unfold j).Normal how)
    (hnode : g.nodes[i]? = some node) (hop : node.children ≠ []) :
    simplifyNode how done i h = push (node.map fun c => done.getD c c) h := by
  obtain ⟨hbelow, hself⟩ := List.forall_mem_append.mp hnormal
  have hmem : ∀ c ∈ node.children, c ∈ s := fun c hc =>
    hnext.children c ((mem_children hnode).mpr hc)
  have hsame : node.expression (fun c => h.unfold (done.getD c c)) = node.expression g.unfold := by
    refine Node.expression_congr fun c hc => ?_
    rw [hu c (hmem c hc), Expression.simplify_of_normal (hbelow c (hmem c hc))]
  refine simplifyNode_eq_push hnext.simplifying.wellFormed (hnext.getElem?_eq.trans hnode)
    (fun c hc => hnext.root_lt (hmem c hc)) hop ?_
  rw [hsame, ← hg.unfold_eq hnode]
  exact hself i (List.mem_singleton_self i)

section Next

variable (hnext : Simplifying.Next how g n s i done h) (hu : Unfolding how g s done h)
  (hg : g.WellFormed) (hnormal : ∀ j ∈ s ++ [i], (g.unfold j).Normal how)

include hnext hu hg hnormal

/-- A leaf is left where it is, and an operation is recorded at the end. -/
theorem next_cases :
    (g.children i = [] ∧ simplifyNode how done i h = (⟨i⟩, h)) ∨
      g.children i ≠ [] ∧ ∃ node, g.nodes[i]? = some node ∧
        simplifyNode how done i h = push (node.map fun c => done.getD c c) h := by
  obtain ⟨node, hnode⟩ : ∃ node, g.nodes[i]? = some node :=
    ⟨_, Array.getElem?_eq_getElem hnext.lt_size⟩
  have hchildren : g.children i = node.children := by rw [children, hnode]
  by_cases hleaf : node.children = []
  · exact .inl ⟨hchildren.trans hleaf, simplifyNode_leaf (hnext.getElem?_eq.trans hnode) hleaf⟩
  · exact .inr ⟨hchildren.trans_ne hleaf, node, hnode,
      node_eq_push hnext hu hg hnormal hnode hleaf⟩

/-- Where it then stands, it is over what its children have become. -/
theorem next_node :
    (simplifyNode how done i h).2.nodes[(simplifyNode how done i h).1.root]? =
      (g.nodes[i]?).map (Node.map fun c => done.getD c c) := by
  obtain ⟨hleaf, heq⟩ | ⟨-, node, hnode, heq⟩ := next_cases hnext hu hg hnormal
  · rw [heq]
    refine hnext.getElem?_eq.trans ?_
    cases hnode : g.nodes[i]? with
    | none => rfl
    | some node =>
        rw [children, hnode] at hleaf
        exact congrArg some (Node.map_of_leaf hleaf).symm
  · rw [heq, hnode]
    exact getElem?_push_size h _

/-- None of the others has become what it becomes. -/
theorem next_distinct (hr : Repeating g s done h) :
    ∀ j ∈ s, done.getD j j ≠ (simplifyNode how done i h).1.root := by
  intro j hj heq
  obtain ⟨-, hsame⟩ | ⟨-, node, -, hpush⟩ := next_cases hnext hu hg hnormal
  · replace heq : done.getD j j = i := by rwa [hsame] at heq
    by_cases hj' : g.children j = []
    · obtain rfl := (hr.leaf j hj hj').symm.trans heq
      exact hnext.new hj
    · have hfresh := hr.fresh j hj hj'
      have hi := hnext.lt_size
      omega
  · rw [hpush] at heq
    exact absurd heq (Nat.ne_of_lt (hnext.root_lt hj))

/-- Simplifying the node that comes next. -/
theorem snoc (hr : Repeating g s done h) :
    Repeating g (s ++ [i]) (simplifyStep how (done, h) i).1 (simplifyStep how (done, h) i).2 := by
  have hcases : ∀ j ∈ s ++ [i], j ∈ s ∨ j = i := fun j hj =>
    (List.mem_append.mp hj).imp_right List.mem_singleton.mp
  have hnew := next_cases hnext hu hg hnormal
  have hdistinct := next_distinct hnext hu hg hnormal hr
  -- what the children of a node have become is not touched
  have hmap : ∀ j, (∀ c ∈ g.children j, c ∈ s) →
      (g.nodes[j]?).map (Node.map fun c => (simplifyStep how (done, h) i).1.getD c c) =
        (g.nodes[j]?).map (Node.map fun c => done.getD c c) := by
    intro j hmem
    cases hnode : g.nodes[j]? with
    | none => rfl
    | some node =>
        refine congrArg some (Node.map_congr fun c hc => hnext.getD_before (hmem c ?_))
        exact (mem_children hnode).mpr hc
  refine ⟨fun j hj hleaf => ?_, fun j hj hop => ?_, fun j hj k hk heq => ?_, fun j hj => ?_⟩
  · obtain hjs | rfl := hcases j hj
    · rw [hnext.getD_before hjs]
      exact hr.leaf j hjs hleaf
    · obtain ⟨-, hsame⟩ | ⟨hop, -⟩ := hnew
      · rw [hnext.getD_self, hsame]
      · exact absurd hleaf hop
  · obtain hjs | rfl := hcases j hj
    · rw [hnext.getD_before hjs]
      exact hr.fresh j hjs hop
    · obtain ⟨hleaf, -⟩ | ⟨-, node, -, hpush⟩ := hnew
      · exact absurd hleaf hop
      · rw [hnext.getD_self, hpush]
        exact size_le_of_le hnext.simplifying.le
  · obtain hjs | rfl := hcases j hj <;> obtain hks | rfl := hcases k hk
    · rw [hnext.getD_before hjs, hnext.getD_before hks] at heq
      exact hr.injective j hjs k hks heq
    · rw [hnext.getD_before hjs, hnext.getD_self] at heq
      exact absurd heq (hdistinct j hjs)
    · rw [hnext.getD_before hks, hnext.getD_self] at heq
      exact absurd heq.symm (hdistinct k hks)
    · rfl
  · obtain hjs | rfl := hcases j hj
    · rw [hnext.getD_before hjs, hmap j (hnext.before.children_mem j hjs)]
      exact (getElem?_of_le hnext.grown.le (hnext.root_lt hjs)).trans (hr.node j hjs)
    · rw [hnext.getD_self, hmap j hnext.children]
      exact next_node hnext hu hg hnormal

end Next

theorem run (how : RuleSet) (hg : g.WellFormed) (hs : g.ChildrenFirst s) (hlt : ∀ j ∈ s, j < n)
    (hn : n ≤ g.size) (hnormal : ∀ j ∈ s, (g.unfold j).Normal how) :
    Repeating g s (s.foldl (simplifyStep how) (Array.range n, g)).1
      (s.foldl (simplifyStep how) (Array.range n, g)).2 := by
  have hboth := Simplifying.along (P := fun s done h => Unfolding how g s done h ∧
      ((∀ j ∈ s, (g.unfold j).Normal how) → Repeating g s done h)) how hg hn
    ⟨nofun, fun _ => ⟨nofun, nofun, nofun, nofun⟩⟩
    (fun hnext ⟨hu, hr⟩ => ⟨Unfolding.snoc hnext hu, fun hnormal =>
      snoc hnext hu hg hnormal (hr (List.forall_mem_append.mp hnormal).1)⟩) hs hlt
  exact hboth.2 hnormal

end Repeating

/-- A normal formula is recorded again as it is, sharing included. -/
theorem simplify_renames (hg : g.WellFormed) (hf : f.root < g.size)
    (hnormal : (g.unfold f.root).Normal how) :
    ∃ φ, φ f.root = (simplify how f g).1.root ∧ Renames φ g f.root (simplify how f g).2 := by
  have hrun := Repeating.run how hg (order_childrenFirst hg f.root) (n := f.root + 1)
    (fun i hi => Nat.lt_succ_of_le (le_of_mem_order hg hi)) hf fun j hj =>
      normal_of_reaches hg ((mem_order_iff hg).mp hj) hnormal
  rw [Array.foldl_toList] at hrun
  exact ⟨_, rfl, fun j k hj hk => hrun.injective j ((mem_order_iff hg).mpr hj) k
    ((mem_order_iff hg).mpr hk), fun j hj => hrun.node j ((mem_order_iff hg).mpr hj)⟩

end Graph

end PlaneFigure
