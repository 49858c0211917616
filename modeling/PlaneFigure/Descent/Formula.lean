import PlaneFigure.Decimal.Layout
import PlaneFigure.Descent.Basic
import PlaneFigure.Graph.Gradient

/-!
Minimizing formulas, and the outcomes of a descent on doubles as text.
-/

namespace PlaneFigure

namespace Descent

variable {R : Type} [Number R]

/-- A number, or zero in place of one that is not finite. -/
@[inline] def finiteOrZero (x : R) : R := if Number.isFinite x then x else 0.0

/-- The value of a formula as the loss, with some of its variables moving. Derivatives that are not
finite count as zero, so that the other variables can still move. -/
@[specialize]
def Objective.ofFormula (g : Graph R) (f : Formula R) (moving : List Nat) : Objective R :=
  let n := moving.foldl (fun n i => max n (i + 1)) 0
  { loss := fun values => g.value (fun i => values.getD i 0.0) f
    moving
    slope := fun values =>
      let gradient := (g.gradient (fun i => values.getD i 0.0) f n).2
      moving.map fun i => finiteOrZero (gradient.getD i 0.0) }

/-- Losses in messages always have an exponent. -/
def lossLayout : Decimal.Layout := ⟨0, 0, false⟩

/-- The message of an outcome other than a report. -/
def Outcome.message : Outcome Float → String
  | .settled _ => ""
  | .exhausted iterations loss =>
    "minimizer did not converge after " ++ toString iterations ++ " iterations (loss " ++
      lossLayout.render loss ++ ")"
  | .notFinite => "loss is not finite at iteration 0"

end Descent

end PlaneFigure
