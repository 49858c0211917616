import PlaneFigure.Graph.Order
import PlaneFigure.Graph.Value

/-!
Gradients by one backward sweep. Each node hands its adjoint on to its children in shares given by
the local derivatives; what reaches a variable is added to that variable's entry.
-/

namespace PlaneFigure

variable {R : Type} [Number R]

/-- The derivative of an operation at the argument `x`, where it has the value `v`. The square
root counts as flat where it is zero, the arc cosine outside the open unit interval. -/
@[inline] def UnaryOp.derivative (op : UnaryOp) (x v : R) : R :=
  match op with
  | .neg => -1.0
  | .sqrt => if Number.lt 0.0 v then 0.5 / v else 0.0
  | .sin => Number.cos x
  | .cos => -Number.sin x
  | .acos => if Number.lt (x * x) 1.0 then -1.0 / Number.sqrt (1.0 - x * x) else 0.0
  | .tanh => 1.0 - v * v
  | .sigmoid => v * (1.0 - v)

/-- What a node with adjoint `a` and value `v` adds to the adjoints of its children, in order;
`val` gives the values of the children. -/
@[inline] def Node.shares (val : Nat → R) (v a : R) : Node R → List (Nat × R)
  | .const _ => []
  | .var _ => []
  | .unary op x => [(x, a * op.derivative (val x) v)]
  | .binary .add l r => [(l, a), (r, a)]
  | .binary .sub l r => [(l, a), (r, -a)]
  | .binary .mul l r => [(l, a * val r), (r, a * val l)]
  | .binary .div l r => [(l, a / val r), (r, -a * val l / (val r * val r))]
  | .binary .max l r => if Number.le (val r) (val l) then [(l, a)] else [(r, a)]

/-- The state of a sweep: an adjoint for every node, and the gradient collected so far. -/
structure Sweep (R : Type) where
  adjoints : Array R
  gradient : Array R

/-- Hand the shares on. -/
@[inline] def Sweep.addAll (s : Sweep R) (shares : List (Nat × R)) : Sweep R :=
  { s with adjoints := shares.foldl (fun a share => a.modify share.1 (· + share.2)) s.adjoints }

namespace Graph

/-- One node of the sweep. A node with adjoint zero hands nothing on. -/
@[specialize]
def sweepNode (g : Graph R) (vs : Array R) (s : Sweep R) (i : Nat) : Sweep R :=
  let a := s.adjoints.getD i 0.0
  if Number.eq a 0.0 then s
  else match g.nodes[i]? with
    | none => s
    | some (.var k) => { s with gradient := s.gradient.modify k (· + a) }
    | some node => s.addAll (node.shares (fun c => vs.getD c 0.0) (vs.getD i 0.0) a)

/-- The value of a formula and its derivatives by the variables `0, …, n - 1`. -/
@[specialize]
def gradient (g : Graph R) (ρ : Nat → R) (f : Formula R) (n : Nat) : R × Array R :=
  let vs := g.values ρ (f.root + 1)
  let start : Sweep R :=
    { adjoints := (Array.replicate (f.root + 1) 0.0).setIfInBounds f.root 1.0
      gradient := Array.replicate n 0.0 }
  (vs.getD f.root 0.0, ((g.order f.root).foldr (fun i s => g.sweepNode vs s i) start).gradient)

end Graph

end PlaneFigure
