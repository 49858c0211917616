import PlaneFigure.Graph.Simplify
import PlaneFigure.Graph.Value

/-!
Formulas as scalars: every operation records a node.
-/

namespace PlaneFigure

instance {R : Type} [Number R] : Scalar (Formula R) R (Graph R) where
  const c := Graph.push (.const c)
  free i _ := Graph.push (.var i)
  unary := Graph.unary
  binary := Graph.binary
  simplify := Graph.simplify
  read g ρ f := g.value ρ f

end PlaneFigure
