import PlaneFigure.Decimal.Layout
import PlaneFigure.Descent.Basic
import PlaneFigure.Json.Writer
import PlaneFigure.NameMap
import PlaneFigure.Point

/-!
Drawings: where the points and variables of a figure ended up, how well its losses were met, and
the seed that led there.
-/

namespace PlaneFigure

/-- A loss by its name: its weight, and the square of its residual. -/
structure LossEntry where
  name : String
  weight : Float
  value : Float

structure Drawing where
  seed : UInt64
  points : NameMap (Point Float)
  vars : NameMap Float
  losses : List LossEntry
  report : Descent.Report Float

namespace Drawing

/-- Numbers have a point or an exponent. -/
def numberLayout : Decimal.Layout := ⟨-5, 16, true⟩

/-- A number; null if it is not finite. -/
def numberJson (x : Float) : Json :=
  if x.isFinite then .number (numberLayout.render x) else .null

def pointJson (p : Point Float) : Json := .array [numberJson p.x, numberJson p.y]

def mapJson {α : Type} (f : α → Json) (m : NameMap α) : Json :=
  .object (m.map fun (name, x) => (name, f x))

def lossJson (l : LossEntry) : Json :=
  .object [("name", .string l.name), ("weight", numberJson l.weight), ("value", numberJson l.value)]

def reportJson (r : Descent.Report Float) : Json :=
  .object [("converged", .bool r.converged), ("iterations", .nat r.iterations),
    ("final_loss", numberJson r.finalLoss)]

def toJson (d : Drawing) : Json :=
  .object [("seed", .nat d.seed.toNat), ("points", mapJson pointJson d.points),
    ("variables", mapJson numberJson d.vars), ("losses", .array (d.losses.map lossJson)),
    ("report", reportJson d.report)]

end Drawing

end PlaneFigure
