import PlaneFigure.Proofs.Graph.Expression
import PlaneFigure.Proofs.Graph.Simplify

/-!
The operations on formulas, and their simplification, as operations on expressions. What a formula
unfolds to after an operation depends on what its operands unfolded to, and on nothing else that the
graph records.
-/

namespace PlaneFigure

variable {R : Type}

namespace Expression

/-- The constant that an expression is, if it is one. -/
def const? : Expression R → Option R
  | const c => some c
  | _ => none

/-- The expression whose negation this is, if it is a negation. -/
def negated? : Expression R → Option (Expression R)
  | unary .neg x => some x
  | _ => none

variable [Number R]

def isConst (e : Expression R) (c : R) : Bool :=
  match e.const? with
  | some d => Number.eq d c
  | none => false

/-- An operation, which is carried out on a constant. -/
def applyUnary (op : UnaryOp) (x : Expression R) : Expression R :=
  match x.const? with
  | some c => const (op.apply c)
  | none => unary op x

def applyBinary (op : BinaryOp) (l r : Expression R) : Expression R :=
  match l.const?, r.const? with
  | some a, some b => const (op.apply a b)
  | _, _ => binary op l r

/-- An operation on a simplified operand, after the rules for negations. -/
def simplifyUnary (op : UnaryOp) (x : Expression R) : Expression R :=
  match op, x.negated? with
  | .neg, some y => y
  | .sin, some y => (y.applyUnary .sin).applyUnary .neg
  | .cos, some y => y.applyUnary .cos
  | _, _ => x.applyUnary op

/-- An operation on simplified operands, after the rules for neutral constants. -/
def simplifyBinary (how : RuleSet) (op : BinaryOp) (l r : Expression R) : Expression R :=
  match how, op with
  | .all, .add =>
    if r.isConst 0.0 then l else if l.isConst 0.0 then r else applyBinary .add l r
  | .all, .sub => if r.isConst 0.0 then l else applyBinary .sub l r
  | .all, .mul =>
    if r.isConst 1.0 then l else if l.isConst 1.0 then r else applyBinary .mul l r
  | .all, .div => if r.isConst 1.0 then l else applyBinary .div l r
  | _, _ => applyBinary op l r

/-- The simplified expression, from the leaves up. -/
def simplify (how : RuleSet) : Expression R → Expression R
  | const c => const c
  | var i => var i
  | unary op x => simplifyUnary op (x.simplify how)
  | binary op l r => simplifyBinary how op (l.simplify how) (r.simplify how)

end Expression

/-- Expressions as scalars. They need no memory, and simplification is one of their operations. -/
instance [Number R] : Scalar (Expression R) R Unit where
  const c := pure (.const c)
  free i _ := pure (.var i)
  unary op x := pure (x.applyUnary op)
  binary op l r := pure (.applyBinary op l r)
  simplify how x := pure (x.simplify how)
  read _ ρ x := x.value ρ

namespace Graph

variable [Number R] {g h : Graph R} {how : RuleSet} {f x l r : Formula R} {i n : Nat}

theorem unfold_push (hg : g.WellFormed) (node : Node R) (hnode : ∀ c ∈ node.children, c < g.size) :
    (push node g).2.unfold (push node g).1.root = node.expression g.unfold := by
  have hsame : ∀ c ∈ node.children, (push node g).2.unfold c = g.unfold c := fun c hc =>
    unfold_of_le (le_push g node) (hnode c hc)
  refine ((hg.push hnode).unfold_eq (getElem?_push_size g node)).trans ?_
  cases node <;> simp_all [Node.expression, Node.children]

theorem const?_unfold (hg : g.WellFormed) (hf : f.root < g.size) :
    (g.unfold f.root).const? = g.const? f := by
  have hnode := Array.getElem?_eq_getElem hf
  rw [hg.unfold_eq hnode, const?, hnode]
  cases g.nodes[f.root] <;> rfl

theorem isConst_unfold (hg : g.WellFormed) (hf : f.root < g.size) (c : R) :
    (g.unfold f.root).isConst c = g.isConst f c := by
  cases hc : g.const? f <;> simp only [Expression.isConst, isConst, const?_unfold hg hf, hc]

theorem negated?_unfold (hg : g.WellFormed) (hf : f.root < g.size) :
    (g.unfold f.root).negated? = (g.negated? f).map fun y => g.unfold y.root := by
  have hnode := Array.getElem?_eq_getElem hf
  rw [hg.unfold_eq hnode, negated?, hnode]
  rcases g.nodes[f.root] with _ | _ | ⟨_ | _, _⟩ | _ <;> rfl

theorem unary_unfold (hg : g.WellFormed) (op : UnaryOp) (hx : x.root < g.size) :
    (unary op x g).2.unfold (unary op x g).1.root = (g.unfold x.root).applyUnary op := by
  unfold Expression.applyUnary unary
  rw [const?_unfold hg hx]
  cases g.const? x with
  | some c => exact unfold_push hg (.const _) (by simp [Node.children])
  | none => exact unfold_push hg (.unary op x.root) (by simpa [Node.children] using hx)

theorem binary_unfold (hg : g.WellFormed) (op : BinaryOp) (hl : l.root < g.size)
    (hr : r.root < g.size) :
    (binary op l r g).2.unfold (binary op l r g).1.root =
      .applyBinary op (g.unfold l.root) (g.unfold r.root) := by
  unfold Expression.applyBinary binary
  rw [const?_unfold hg hl, const?_unfold hg hr]
  have hpush := unfold_push hg (.binary op l.root r.root) (by simp [Node.children, hl, hr])
  cases g.const? l with
  | none => exact hpush
  | some a =>
      cases g.const? r with
      | none => exact hpush
      | some b => exact unfold_push hg (.const _) (by simp [Node.children])

theorem simplifyUnary_unfold (hg : g.WellFormed) (op : UnaryOp) (hx : x.root < g.size) :
    (simplifyUnary op x g).2.unfold (simplifyUnary op x g).1.root =
      (g.unfold x.root).simplifyUnary op := by
  unfold Expression.simplifyUnary simplifyUnary
  rw [negated?_unfold hg hx]
  cases hneg : g.negated? x with
  | none => cases op <;> exact unary_unfold hg _ hx
  | some y =>
      have hy := negated?_root_lt hg hneg
      cases op with
      | neg => rfl
      | sin =>
          have hsin : Grown g (unary .sin y g).1 (unary .sin y g).2 := unary_grown hg hy
          refine (unary_unfold hsin.wellFormed _ hsin.root_lt).trans ?_
          rw [unary_unfold hg _ hy]
          rfl
      | cos => exact unary_unfold hg _ hy
      | _ => exact unary_unfold hg _ hx

theorem simplifyBinary_unfold (hg : g.WellFormed) (op : BinaryOp) (hl : l.root < g.size)
    (hr : r.root < g.size) :
    (simplifyBinary how op l r g).2.unfold (simplifyBinary how op l r g).1.root =
      .simplifyBinary how op (g.unfold l.root) (g.unfold r.root) := by
  have happly := fun op => binary_unfold hg op hl hr
  unfold Expression.simplifyBinary simplifyBinary
  simp only [isConst_unfold hg hl, isConst_unfold hg hr]
  cases how with
  | trig => cases op <;> exact happly _
  | all =>
      cases op with
      | max => exact happly _
      | _ =>
          dsimp only
          split_ifs
          all_goals first | rfl | exact happly _

/-- What is known when the nodes of `l` have been simplified: each unfolds to what the expression
before is simplified to. -/
def Unfolding (how : RuleSet) (g : Graph R) (l : List Nat) (done : Array Nat) (h : Graph R) :
    Prop :=
  ∀ i ∈ l, h.unfold (done.getD i i) = (g.unfold i).simplify how

namespace Unfolding

variable {s : List Nat} {done : Array Nat}

/-- The node that comes next, over children that have been simplified. -/
theorem node (hsim : Simplifying how g n done h) (hu : Unfolding how g s done h) (hi : i < n)
    (hn : n ≤ g.size) (hchildren : ∀ c ∈ g.children i, c ∈ s) :
    (simplifyNode how done i h).2.unfold (simplifyNode how done i h).1.root =
      (g.unfold i).simplify how := by
  have hig := Nat.lt_of_lt_of_le hi hn
  have hsame : h.unfold i = g.unfold i := unfold_of_le hsim.le hig
  have hchild : ∀ {node c}, h.nodes[i]? = some node → c ∈ node.children →
      h.unfold (done.getD c c) = (h.unfold c).simplify how ∧ done.getD c c < h.size := by
    intro node c hnode hc
    have hci := hsim.wellFormed.child_lt hnode hc
    have hcs : c ∈ s := by
      refine hchildren c ?_
      rwa [children, ← getElem?_of_le hsim.le hig, hnode]
    exact ⟨(hu c hcs).trans (congrArg _ (unfold_of_le hsim.le (Nat.lt_trans hci hig)).symm),
      hsim.root_lt c (Nat.lt_trans hci hi)⟩
  rw [← hsame]
  unfold simplifyNode
  split
  next op x hnode =>
    obtain ⟨hx, hlt⟩ := hchild hnode (List.mem_singleton_self x)
    rw [hsim.wellFormed.unfold_eq hnode]
    exact (simplifyUnary_unfold hsim.wellFormed op hlt).trans (congrArg _ hx)
  next op l r hnode =>
    obtain ⟨hl, hllt⟩ := hchild hnode (c := l) (by simp [Node.children])
    obtain ⟨hr, hrlt⟩ := hchild hnode (c := r) (by simp [Node.children])
    rw [hsim.wellFormed.unfold_eq hnode]
    exact (simplifyBinary_unfold hsim.wellFormed op hllt hrlt).trans (congrArg₂ _ hl hr)
  next hunary hbinary =>
    -- constants and variables are simplified to themselves
    obtain ⟨node, hnode⟩ : ∃ node, h.nodes[i]? = some node :=
      ⟨_, Array.getElem?_eq_getElem (Nat.lt_of_lt_of_le hig (size_le_of_le hsim.le))⟩
    rw [hsim.wellFormed.unfold_eq hnode]
    cases node with
    | const c => rfl
    | var k => rfl
    | unary op x => exact (hunary op x hnode).elim
    | binary op l r => exact (hbinary op l r hnode).elim

theorem snoc (hnext : Simplifying.Next how g n s i done h) (hu : Unfolding how g s done h) :
    Unfolding how g (s ++ [i]) (simplifyStep how (done, h) i).1 (simplifyStep how (done, h) i).2 := by
  intro j hj
  obtain hjs | hji := List.mem_append.mp hj
  · rw [hnext.getD_before hjs]
    exact (unfold_of_le hnext.grown.le (hnext.root_lt hjs)).trans (hu j hjs)
  · obtain rfl := List.mem_singleton.mp hji
    rw [hnext.getD_self]
    exact node hnext.simplifying hu hnext.lt hnext.size hnext.children

theorem run (how : RuleSet) (hg : g.WellFormed) (hs : g.ChildrenFirst s) (hlt : ∀ j ∈ s, j < n)
    (hn : n ≤ g.size) :
    Unfolding how g s (s.foldl (simplifyStep how) (Array.range n, g)).1
      (s.foldl (simplifyStep how) (Array.range n, g)).2 :=
  Simplifying.along how hg hn nofun snoc hs hlt

end Unfolding

/-- A simplified formula unfolds to the simplified expression. -/
theorem simplify_unfold (hg : g.WellFormed) (hf : f.root < g.size) :
    (simplify how f g).2.unfold (simplify how f g).1.root = (g.unfold f.root).simplify how := by
  let r := (g.order f.root).foldl (simplifyStep how) (Array.range (f.root + 1), g)
  have hrun : Unfolding how g (g.order f.root).toList r.1 r.2 := by
    have hlt : ∀ i ∈ (g.order f.root).toList, i < f.root + 1 := fun i hi =>
      Nat.lt_succ_of_le (le_of_mem_order hg hi)
    have h := Unfolding.run how hg (order_childrenFirst hg f.root) hlt hf
    rwa [Array.foldl_toList] at h
  exact hrun f.root (root_mem_order hg f.root)

end Graph

end PlaneFigure
