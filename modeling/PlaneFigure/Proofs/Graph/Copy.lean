import PlaneFigure.Proofs.Graph.Reach
import PlaneFigure.Proofs.Graph.Simplify

/-!
What the symmetries of sine and cosine leave of a formula. A node to which no rule applies is recorded
anew over its simplified children, so a simplified formula has copies of all operations with two
operands of the original, and shares none of them with it.
-/

namespace PlaneFigure.Graph

variable {R : Type} [Number R] {g h : Graph R} {i j k n : Nat} {f x y l r : Formula R}
  {done : Array Nat}

omit [Number R] in
/-- Below a negation lies what lies below its operand, but for itself. -/
theorem Lasting.below_negation (hk : h.Lasting k) (hx : h.negated? x = some y)
    (hreaches : h.Reaches x.root k) : h.Reaches y.root k := by
  have hnode := negated?_eq_some hx
  obtain heq | ⟨c, hc, hck⟩ := hreaches.cases
  · subst heq
    obtain ⟨n, hn⟩ | ⟨op, l, r, hn⟩ := hk <;> cases hnode.symm.trans hn
  · obtain rfl := List.mem_singleton.mp ((mem_children hnode).mp hc)
    exact hck

/-- No rule takes away what lies below the operand. -/
theorem simplifyUnary_reaches {op : UnaryOp} (hk : h.Lasting k) (hx : h.Reaches x.root k) :
    (simplifyUnary op x h).2.Reaches (simplifyUnary op x h).1.root k := by
  have hunary : ∀ {op y} {g : Graph R}, g.Lasting k → g.Reaches y.root k →
      (unary op y g).2.Reaches (unary op y g).1.root k := fun hk hy =>
    (unary_reaches (hk.const?_eq_none hy)).trans (hy.of_le (le_unary ..))
  unfold simplifyUnary
  split
  next y hneg => exact hk.below_negation hneg hx
  next y hneg =>
    exact hunary (hk.of_le (le_unary ..)) (hunary hk (hk.below_negation hneg hx))
  next y hneg => exact hunary hk (hk.below_negation hneg hx)
  next => exact hunary hk hx

theorem simplifyBinary_trig (op : BinaryOp) (l r : Formula R) :
    simplifyBinary .trig op l r = binary op l r := by
  cases op <;> rfl

theorem simplifyBinary_reaches {op : BinaryOp} (hk : h.Lasting k)
    (hlr : h.Reaches l.root k ∨ h.Reaches r.root k) :
    (simplifyBinary .trig op l r h).2.Reaches (simplifyBinary .trig op l r h).1.root k := by
  rw [simplifyBinary_trig]
  obtain ⟨hl, hr⟩ := binary_reaches (hlr.imp hk.const?_eq_none hk.const?_eq_none)
  have hle := le_binary op l r h
  exact hlr.elim (fun h => hl.trans (h.of_le hle)) fun h => hr.trans (h.of_le hle)

/-- What is known when the nodes of `l` have been simplified: variables are as they were; of every
operation with two operands there is a copy of its own; and what lay below lies below, unless it was
a negation. -/
structure Copying (g : Graph R) (l : List Nat) (done : Array Nat) (h : Graph R) : Prop where
  var : ∀ i ∈ l, ∀ n, g.nodes[i]? = some (.var n) → done.getD i i = i
  copied : ∀ i ∈ l, g.Operation i → g.size ≤ done.getD i i ∧ h.Operation (done.getD i i)
  injective : ∀ i ∈ l, ∀ j ∈ l, g.Operation i → g.Operation j →
    done.getD i i = done.getD j j → i = j
  reaches : ∀ i ∈ l, ∀ j ∈ l, g.Reaches i j → h.Lasting (done.getD j j) →
    h.Reaches (done.getD i i) (done.getD j j)

namespace Copying

variable {s : List Nat}

omit [Number R] in
/-- A live node becomes a live node. -/
theorem live (hc : Copying g s done h) (hgh : g ≤ h) (hs : g.ChildrenFirst s) (hi : i ∈ s)
    (hlive : g.Live i) : h.Live (done.getD i i) := by
  obtain ⟨v, n, hv, hn⟩ := hlive
  have hvs := hs.mem_of_reaches hi hv
  have hvar := hc.var v hvs n hn
  have hn' := getElem?_of_le_of_eq_some hgh hn
  have hreaches := hc.reaches i hi v hvs hv (hvar.symm ▸ .inl ⟨n, hn'⟩)
  exact ⟨v, n, hvar ▸ hreaches, hn'⟩

section Node

variable (hsim : Simplifying .trig g n done h) (hc : Copying g s done h)
  (hs : g.ChildrenFirst s) (hchildren : ∀ c ∈ g.children i, c ∈ s)

include hsim hc hchildren

theorem node_reaches (hi : i < n) (hn : n ≤ g.size) {c : Nat} (hcc : c ∈ g.children i) (hj : j ∈ s)
    (hcj : g.Reaches c j) (hk : h.Lasting (done.getD j j)) :
    (simplifyNode .trig done i h).2.Reaches (simplifyNode .trig done i h).1.root
      (done.getD j j) := by
  have hbelow := hc.reaches c (hchildren c hcc) j hj hcj hk
  have hnode : h.nodes[i]? = g.nodes[i]? :=
    getElem?_of_le hsim.le (Nat.lt_of_lt_of_le hi hn)
  unfold simplifyNode
  rw [hnode]
  split
  next op x hx =>
    obtain rfl := List.mem_singleton.mp ((mem_children hx).mp hcc)
    exact simplifyUnary_reaches hk hbelow
  next op l r hlr =>
    refine simplifyBinary_reaches hk ?_
    obtain rfl | hcr := List.mem_cons.mp ((mem_children hlr).mp hcc)
    · exact .inl hbelow
    · obtain rfl := List.mem_singleton.mp hcr
      exact .inr hbelow
  next hleaf hleaf' =>
    -- a leaf has no children
    cases hx : g.nodes[i]? with
    | none => simp [children, hx] at hcc
    | some node => cases node <;> simp_all [children, Node.children]

include hs in
theorem node_copied (hop : g.Operation i) :
    (simplifyNode .trig done i h).1.root = h.size ∧
      (simplifyNode .trig done i h).2.Operation h.size := by
  obtain ⟨hlive, op, l, r, hnode⟩ := hop
  have hnode' : h.nodes[i]? = some (.binary op l r) :=
    getElem?_of_le_of_eq_some hsim.le hnode
  obtain ⟨c, hcc, hclive⟩ := hlive.exists_child hnode nofun
  have hc' := hc.live hsim.le hs (hchildren c ((mem_children hnode).mpr hcc)) hclive
  have hlr : h.Live (done.getD l l) ∨ h.Live (done.getD r r) := by
    obtain rfl | hcr := List.mem_cons.mp hcc
    · exact .inl hc'
    · obtain rfl := List.mem_singleton.mp hcr
      exact .inr hc'
  simp only [simplifyNode, hnode', simplifyBinary_trig]
  exact binary_operation hlr

end Node

/-- Simplifying the node that comes next. -/
theorem snoc (hnext : Simplifying.Next .trig g n s i done h) (hc : Copying g s done h) :
    Copying g (s ++ [i]) (simplifyStep .trig (done, h) i).1 (simplifyStep .trig (done, h) i).2 := by
  have hle : h ≤ (simplifyNode .trig done i h).2 := hnext.grown.le
  have hsize : g.size ≤ h.size := size_le_of_le hnext.simplifying.le
  have hcases : ∀ j ∈ s ++ [i], j ∈ s ∨ j = i := fun j hj =>
    (List.mem_append.mp hj).imp_right List.mem_singleton.mp
  have hcopied := fun hop =>
    hc.node_copied hnext.simplifying hnext.before hnext.children (i := i) hop
  refine ⟨fun j hj m hm => ?_, fun j hj hop => ?_, fun j hj k hk hop hop' heq => ?_,
    fun j hj k hk hjk hlast => ?_⟩
  · obtain hjs | rfl := hcases j hj
    · rw [hnext.getD_before hjs]
      exact hc.var j hjs m hm
    · simp [hnext.getD_self, simplifyNode, hnext.getElem?_eq.trans hm]
  · obtain hjs | rfl := hcases j hj
    · rw [hnext.getD_before hjs]
      exact ⟨(hc.copied j hjs hop).1, (hc.copied j hjs hop).2.of_le hle⟩
    · rw [hnext.getD_self, (hcopied hop).1]
      exact ⟨hsize, (hcopied hop).2⟩
  · obtain hjs | rfl := hcases j hj <;> obtain hks | rfl := hcases k hk
    · rw [hnext.getD_before hjs, hnext.getD_before hks] at heq
      exact hc.injective j hjs k hks hop hop' heq
    · rw [hnext.getD_before hjs, hnext.getD_self, (hcopied hop').1] at heq
      exact absurd heq (Nat.ne_of_lt (hnext.root_lt hjs))
    · rw [hnext.getD_before hks, hnext.getD_self, (hcopied hop).1] at heq
      exact absurd heq.symm (Nat.ne_of_lt (hnext.root_lt hks))
    · rfl
  · obtain hks | rfl := hcases k hk
    · rw [hnext.getD_before hks] at hlast ⊢
      have hkept : h.Lasting (done.getD k k) := hlast.of_le_of_lt hle (hnext.root_lt hks)
      obtain hjs | rfl := hcases j hj
      · rw [hnext.getD_before hjs]
        exact (hc.reaches j hjs k hks hjk hkept).of_le hle
      · obtain rfl | ⟨c, hcc, hck⟩ := hjk.cases
        · exact (hnext.new hks).elim
        · rw [hnext.getD_self]
          exact hc.node_reaches hnext.simplifying hnext.children hnext.lt hnext.size hcc hks hck
            hkept
    · obtain hjs | rfl := hcases j hj
      · exact (hnext.new (hnext.before.mem_of_reaches hjs hjk)).elim
      · exact .refl _ _

theorem run (hg : g.WellFormed) (hs : g.ChildrenFirst s) (hlt : ∀ j ∈ s, j < n)
    (hn : n ≤ g.size) :
    Copying g s (s.foldl (simplifyStep .trig) (Array.range n, g)).1
      (s.foldl (simplifyStep .trig) (Array.range n, g)).2 :=
  Simplifying.along .trig hg hn ⟨nofun, nofun, nofun, nofun⟩ snoc hs hlt

end Copying

theorem simplify_copying (hg : g.WellFormed) (hf : f.root < g.size) :
    ∃ done, Copying g (g.order f.root).toList done (simplify .trig f g).2 ∧
      (simplify .trig f g).1.root = done.getD f.root f.root := by
  have hrun := Copying.run hg (order_childrenFirst hg f.root) (n := f.root + 1)
    (fun i hi => Nat.lt_succ_of_le (le_of_mem_order hg hi)) hf
  rw [Array.foldl_toList] at hrun
  exact ⟨_, hrun, rfl⟩

/-- A simplified formula has as many operations with two operands as the original, and all of them
are new. -/
theorem simplify_contains (hg : g.WellFormed) (hf : f.root < g.size) {s : Finset Nat}
    (hs : ∀ j ∈ s, g.Contains f.root j) :
    ∃ t : Finset Nat, t.card = s.card ∧ ∀ k ∈ t, g.size ≤ k ∧
      (simplify .trig f g).2.Contains (simplify .trig f g).1.root k := by
  obtain ⟨done, hc, hroot⟩ := simplify_copying hg hf
  have hroot_mem := root_mem_order hg f.root
  have hmem : ∀ j ∈ s, j ∈ (g.order f.root).toList := fun j hj =>
    (order_childrenFirst hg f.root).mem_of_reaches hroot_mem (hs j hj).1
  refine ⟨s.image fun j => done.getD j j, Finset.card_image_of_injOn ?_, fun k hk => ?_⟩
  · exact fun i hi j hj heq =>
      hc.injective i (hmem i hi) j (hmem j hj) (hs i hi).2 (hs j hj).2 heq
  · obtain ⟨j, hj, rfl⟩ := Finset.mem_image.mp hk
    obtain ⟨hnew, hop⟩ := hc.copied j (hmem j hj) (hs j hj).2
    rw [hroot]
    exact ⟨hnew, hc.reaches _ hroot_mem j (hmem j hj) (hs j hj).1 hop.lasting, hop⟩

end PlaneFigure.Graph
