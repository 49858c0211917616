import Mathlib.Data.Finset.Card
import Mathlib.Logic.Relation
import PlaneFigure.Proofs.Graph.Expression
import PlaneFigure.Proofs.Graph.Operation
import PlaneFigure.Proofs.Graph.Order

/-!
What lies below a formula. The nodes of a formula are those that are reached from its root. A node
that reaches a variable is live: it is no constant, so an operation on it is recorded as a node of its
own, from which all is reached that was reached before.
-/

namespace PlaneFigure.Graph

variable {R : Type} {g h : Graph R} {i j k : Nat} {f x l r : Formula R}

/-- Node `j` is `i` or lies below it. -/
def Reaches (g : Graph R) : Nat → Nat → Prop := Relation.ReflTransGen fun i c => c ∈ g.children i

theorem Reaches.refl (g : Graph R) (i : Nat) : g.Reaches i i := Relation.ReflTransGen.refl

theorem Reaches.trans (h₁ : g.Reaches i j) (h₂ : g.Reaches j k) : g.Reaches i k :=
  Relation.ReflTransGen.trans h₁ h₂

theorem Reaches.head {c : Nat} (hc : c ∈ g.children i) (h : g.Reaches c j) : g.Reaches i j :=
  Relation.ReflTransGen.head hc h

theorem Reaches.cases (h : g.Reaches i j) : i = j ∨ ∃ c ∈ g.children i, g.Reaches c j :=
  Relation.ReflTransGen.cases_head h

/-- What a node hands on to its children, it hands on to all that is below it. -/
theorem Reaches.inherit {P : Nat → Prop} (hij : g.Reaches i j)
    (hP : ∀ k, P k → ∀ c ∈ g.children k, P c) (hi : P i) : P j := by
  induction hij with
  | refl => exact hi
  | tail _ hc ih => exact hP _ ih _ hc

theorem mem_children {node : Node R} {c : Nat} (hi : g.nodes[i]? = some node) :
    c ∈ g.children i ↔ c ∈ node.children := by
  rw [children, hi]

theorem getElem?_of_le_of_eq_some (hgh : g ≤ h) {node : Node R} (hi : g.nodes[i]? = some node) :
    h.nodes[i]? = some node :=
  (getElem?_of_le hgh (Array.getElem?_eq_some_iff.mp hi).1).trans hi

theorem children_of_le (hgh : g ≤ h) {c : Nat} (hc : c ∈ g.children i) : c ∈ h.children i := by
  cases hi : g.nodes[i]? with
  | none => simp [children, hi] at hc
  | some node => exact (mem_children (getElem?_of_le_of_eq_some hgh hi)).mpr ((mem_children hi).mp hc)

/-- What is recorded stays below. -/
theorem Reaches.of_le (hgh : g ≤ h) (hij : g.Reaches i j) : h.Reaches i j := by
  induction hij with
  | refl => exact .refl h i
  | tail _ hc ih => exact ih.trans (.head (children_of_le hgh hc) (.refl h _))

/-- Below a constant or a variable there is nothing else. -/
theorem Reaches.eq_of_children_nil (h : g.Reaches i j) (hi : g.children i = []) : i = j := by
  obtain rfl | ⟨c, hc, -⟩ := h.cases
  · rfl
  · simp [hi] at hc

theorem Reaches.le (hg : g.WellFormed) (h : g.Reaches i j) : j ≤ i :=
  h.inherit (P := (· ≤ i)) (fun _ hki c hc => Nat.le_trans (Nat.le_of_lt (hg _ c hc)) hki)
    (Nat.le_refl i)

/-- What an expression hands on to its operands, a node hands on to its children. -/
theorem unfold_child [Number R] (hg : g.WellFormed) {p : Expression R → Prop}
    (hp : Expression.Hereditary p) (hi : p (g.unfold i)) : ∀ c ∈ g.children i, p (g.unfold c) := by
  intro c hc
  cases hnode : g.nodes[i]? with
  | none => simp [children, hnode] at hc
  | some node =>
      rw [hg.unfold_eq hnode] at hi
      rw [mem_children hnode] at hc
      cases node with
      | const c => simp [Node.children] at hc
      | var k => simp [Node.children] at hc
      | unary op x =>
          obtain rfl := List.mem_singleton.mp hc
          exact hp.operand hi
      | binary op l r =>
          obtain rfl | hc := List.mem_cons.mp hc
          · exact (hp.operands hi).1
          · obtain rfl := List.mem_singleton.mp hc
            exact (hp.operands hi).2

theorem Reaches.unfold [Number R] (hij : g.Reaches i j) (hg : g.WellFormed)
    {p : Expression R → Prop} (hp : Expression.Hereditary p) (h : p (g.unfold i)) :
    p (g.unfold j) :=
  hij.inherit (P := fun k => p (g.unfold k)) (fun _ => unfold_child hg hp) h

/-- Node `i` reaches a variable. -/
def Live (g : Graph R) (i : Nat) : Prop := ∃ v n, g.Reaches i v ∧ g.nodes[v]? = some (.var n)

theorem Live.of_reaches (hj : g.Live j) (h : g.Reaches i j) : g.Live i := by
  obtain ⟨v, n, hv, hn⟩ := hj
  exact ⟨v, n, h.trans hv, hn⟩

theorem Live.of_le (hgh : g ≤ h) (hi : g.Live i) : h.Live i := by
  obtain ⟨v, n, hv, hn⟩ := hi
  exact ⟨v, n, hv.of_le hgh, getElem?_of_le_of_eq_some hgh hn⟩

/-- A live node with children has a live child. -/
theorem Live.exists_child (hi : g.Live i) {node : Node R} (hnode : g.nodes[i]? = some node)
    (hvar : ∀ n, node ≠ .var n) : ∃ c ∈ node.children, g.Live c := by
  obtain ⟨v, n, hv, hn⟩ := hi
  obtain rfl | ⟨c, hc, hcv⟩ := hv.cases
  · exact (hvar n (Option.some.inj (hnode.symm.trans hn))).elim
  · exact ⟨c, (mem_children hnode).mp hc, v, n, hcv, hn⟩

/-- Node `i` is a variable or has two operands: it is no constant, and no rule takes it away. -/
def Lasting (g : Graph R) (i : Nat) : Prop :=
  (∃ n, g.nodes[i]? = some (.var n)) ∨ ∃ op l r, g.nodes[i]? = some (.binary op l r)

theorem Lasting.of_le (hgh : g ≤ h) (hi : g.Lasting i) : h.Lasting i :=
  hi.imp (fun ⟨n, hn⟩ => ⟨n, getElem?_of_le_of_eq_some hgh hn⟩)
    fun ⟨op, l, r, hn⟩ => ⟨op, l, r, getElem?_of_le_of_eq_some hgh hn⟩

theorem Lasting.of_le_of_lt (hgh : g ≤ h) (hlt : i < g.size) (hi : h.Lasting i) : g.Lasting i := by
  rwa [Lasting, ← getElem?_of_le hgh hlt]

/-- What reaches such a node is no constant. -/
theorem Lasting.const?_eq_none (hk : g.Lasting k) (hf : g.Reaches f.root k) : g.const? f = none := by
  cases hc : g.const? f with
  | none => rfl
  | some c =>
      have hnode := const?_eq_some hc
      obtain rfl := hf.eq_of_children_nil (by simp [children, hnode, Node.children])
      obtain ⟨n, hn⟩ | ⟨op, l, r, hn⟩ := hk <;> cases hnode.symm.trans hn

theorem Live.const?_eq_none (hf : g.Live f.root) : g.const? f = none := by
  obtain ⟨v, n, hv, hn⟩ := hf
  exact Lasting.const?_eq_none (.inl ⟨n, hn⟩) hv

/-- Node `i` has two operands and reaches a variable. -/
structure Operation (g : Graph R) (i : Nat) : Prop where
  live : g.Live i
  binary : ∃ op l r, g.nodes[i]? = some (.binary op l r)

theorem Operation.lasting (hi : g.Operation i) : g.Lasting i := .inr hi.binary

theorem Operation.lt_size (hi : g.Operation i) : i < g.size := by
  obtain ⟨op, l, r, hnode⟩ := hi.binary
  exact (Array.getElem?_eq_some_iff.mp hnode).1

theorem Operation.of_le (hgh : g ≤ h) (hi : g.Operation i) : h.Operation i := by
  obtain ⟨hlive, op, l, r, hnode⟩ := hi
  exact ⟨hlive.of_le hgh, op, l, r, getElem?_of_le_of_eq_some hgh hnode⟩

/-- Such a node `j` is `i` or lies below it. -/
def Contains (g : Graph R) (i j : Nat) : Prop := g.Reaches i j ∧ g.Operation j

theorem Contains.of_le (hgh : g ≤ h) (hj : g.Contains i j) : h.Contains i j :=
  ⟨hj.1.of_le hgh, hj.2.of_le hgh⟩

theorem Contains.live_root (hj : g.Contains i j) : g.Live i := hj.2.live.of_reaches hj.1

theorem Contains.of_reaches (hj : g.Contains k j) (h : g.Reaches i k) : g.Contains i j :=
  ⟨h.trans hj.1, hj.2⟩

/-! ### Operations -/

theorem reaches_push {node : Node R} {c : Nat} (hc : c ∈ node.children) :
    (push node g).2.Reaches (push node g).1.root c :=
  .head ((mem_children (getElem?_push_size g node)).mpr hc) (.refl _ c)

section Record

variable [Number R] {op : UnaryOp} {bop : BinaryOp}

theorem unary_eq_push (hx : g.const? x = none) : unary op x g = push (.unary op x.root) g := by
  simp only [unary, hx]

theorem binary_eq_push (h : g.const? l = none ∨ g.const? r = none) :
    binary bop l r g = push (.binary bop l.root r.root) g := by
  unfold binary
  split
  next hl hr =>
    obtain h | h := h
    · simp [h] at hl
    · simp [h] at hr
  · rfl

theorem unary_reaches (hx : g.const? x = none) :
    (unary op x g).2.Reaches (unary op x g).1.root x.root := by
  rw [unary_eq_push hx]
  exact reaches_push (List.mem_singleton_self _)

theorem binary_reaches (h : g.const? l = none ∨ g.const? r = none) :
    (binary bop l r g).2.Reaches (binary bop l r g).1.root l.root ∧
      (binary bop l r g).2.Reaches (binary bop l r g).1.root r.root := by
  rw [binary_eq_push h]
  exact ⟨reaches_push (.head _), reaches_push (.tail _ (.head _))⟩

theorem le_unary (op : UnaryOp) (x : Formula R) (g : Graph R) : g ≤ (unary op x g).2 := by
  unfold unary
  split <;> exact le_push g _

theorem le_binary (op : BinaryOp) (l r : Formula R) (g : Graph R) : g ≤ (binary op l r g).2 := by
  unfold binary
  split <;> exact le_push g _

theorem unary_live (hx : g.Live x.root) : (unary op x g).2.Live (unary op x g).1.root :=
  (hx.of_le (le_unary op x g)).of_reaches (unary_reaches hx.const?_eq_none)

theorem binary_live (h : g.Live l.root ∨ g.Live r.root) :
    (binary bop l r g).2.Live (binary bop l r g).1.root := by
  obtain ⟨hl, hr⟩ := binary_reaches
    (h.imp Live.const?_eq_none Live.const?_eq_none)
  have hle := le_binary bop l r g
  exact h.elim (fun h => (h.of_le hle).of_reaches hl) fun h => (h.of_le hle).of_reaches hr

theorem unary_contains (hj : g.Contains x.root j) :
    (unary op x g).2.Contains (unary op x g).1.root j :=
  (hj.of_le (le_unary op x g)).of_reaches (unary_reaches hj.live_root.const?_eq_none)

theorem binary_contains (hj : g.Contains l.root j ∨ g.Contains r.root j) :
    (binary bop l r g).2.Contains (binary bop l r g).1.root j := by
  obtain ⟨hl, hr⟩ := binary_reaches
    (hj.imp (·.live_root.const?_eq_none) (·.live_root.const?_eq_none))
  have hle := le_binary bop l r g
  exact hj.elim (fun h => (h.of_le hle).of_reaches hl) fun h => (h.of_le hle).of_reaches hr

/-- An operation with a live operand is a new node. -/
theorem binary_operation (h : g.Live l.root ∨ g.Live r.root) :
    (binary bop l r g).1.root = g.size ∧ (binary bop l r g).2.Operation g.size := by
  have hlive : (binary bop l r g).2.Live (binary bop l r g).1.root := binary_live h
  rw [binary_eq_push (h.imp Live.const?_eq_none Live.const?_eq_none)] at hlive ⊢
  exact ⟨rfl, hlive, bop, l.root, r.root, getElem?_push_size g _⟩

end Record

/-! ### Counting -/

theorem ChildrenFirst.nodup {l : List Nat} (h : g.ChildrenFirst l) : l.Nodup := by
  induction h with
  | nil => exact .nil
  | snoc _ hi _ ih =>
      refine List.nodup_append.mpr ⟨ih, List.nodup_singleton _, fun j hj k hk hjk => hi ?_⟩
      rwa [← List.mem_singleton.mp hk, ← hjk]

theorem ChildrenFirst.children_mem {l : List Nat} (h : g.ChildrenFirst l) :
    ∀ i ∈ l, ∀ c ∈ g.children i, c ∈ l := by
  induction h with
  | nil => exact nofun
  | snoc _ _ hc ih =>
      intro j hj c hcj
      rcases List.mem_append.mp hj with hj | hj
      · exact List.mem_append_left _ (ih j hj c hcj)
      · rw [List.mem_singleton.mp hj] at hcj
        exact List.mem_append_left _ (hc c hcj)

theorem ChildrenFirst.mem_of_reaches {l : List Nat} (h : g.ChildrenFirst l) (hi : i ∈ l)
    (hij : g.Reaches i j) : j ∈ l :=
  hij.inherit (P := (· ∈ l)) h.children_mem hi

/-- The nodes of a formula are as many as its order has, so no fewer than any that it reaches. -/
theorem card_le_nodeCount (hg : g.WellFormed) {s : Finset Nat}
    (hs : ∀ j ∈ s, g.Reaches f.root j) : s.card ≤ g.nodeCount f := by
  have horder := order_childrenFirst hg f.root
  have hsub : s ⊆ (g.order f.root).toList.toFinset := fun j hj =>
    List.mem_toFinset.mpr (horder.mem_of_reaches (root_mem_order hg f.root) (hs j hj))
  calc s.card ≤ (g.order f.root).toList.toFinset.card := Finset.card_le_card hsub
    _ = (g.order f.root).toList.length := List.toFinset_card_of_nodup horder.nodup
    _ = g.nodeCount f := Array.length_toList

end PlaneFigure.Graph
