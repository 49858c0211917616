import PlaneFigure.Scalar

/-!
Formulas recorded in a graph. The graph is a table of nodes whose children are earlier entries; a
formula is the index of its root, so a node used twice is shared and two nodes of the same shape
are still two nodes. An operation on constants records its result as one constant.
-/

namespace PlaneFigure

/-- A node: a constant, a variable by its number, or an operation on earlier nodes. -/
inductive Node (R : Type)
  | const (c : R)
  | var (i : Nat)
  | unary (op : UnaryOp) (x : Nat)
  | binary (op : BinaryOp) (l r : Nat)
  deriving DecidableEq, Repr

/-- The children of a node, left before right. -/
def Node.children {R : Type} : Node R → List Nat
  | .const _ => []
  | .var _ => []
  | .unary _ x => [x]
  | .binary _ l r => [l, r]

structure Graph (R : Type) where
  nodes : Array (Node R) := #[]
  deriving Repr

/-- A formula over the numbers `R`: the index of its root in the graph that records it. -/
structure Formula (R : Type) where
  root : Nat
  deriving DecidableEq, Repr

namespace Graph

variable {R : Type}

def empty : Graph R := {}

def size (g : Graph R) : Nat := g.nodes.size

/-- The children of entry `i`; none outside the table. -/
def children (g : Graph R) (i : Nat) : List Nat :=
  match g.nodes[i]? with
  | some node => node.children
  | none => []

/-- Every child is an earlier entry. -/
def WellFormed (g : Graph R) : Prop :=
  ∀ i, ∀ c ∈ g.children i, c < i

/-- Record a node. -/
def push (node : Node R) : StateM (Graph R) (Formula R) :=
  fun g => (⟨g.nodes.size⟩, ⟨g.nodes.push node⟩)

/-- The constant that a formula is, if it is one. -/
def const? (g : Graph R) (f : Formula R) : Option R :=
  match g.nodes[f.root]? with
  | some (.const c) => some c
  | _ => none

variable [Number R]

def unary (op : UnaryOp) (x : Formula R) : StateM (Graph R) (Formula R) := fun g =>
  match g.const? x with
  | some c => push (.const (op.apply c)) g
  | none => push (.unary op x.root) g

def binary (op : BinaryOp) (l r : Formula R) : StateM (Graph R) (Formula R) := fun g =>
  match g.const? l, g.const? r with
  | some a, some b => push (.const (op.apply a b)) g
  | _, _ => push (.binary op l.root r.root) g

end Graph

end PlaneFigure
