import PlaneFigure.Draft.Error
import PlaneFigure.Geometry.Residual

/-!
Relations that can be required of points, their identifiers, and the residuals that vanish where
they hold.
-/

namespace PlaneFigure

inductive RelationKind
  | perp | para | cong | midp | coll | between | onCircle | concyclic
  deriving DecidableEq, Repr

namespace RelationKind

def ofId : String → Except DraftError RelationKind
  | "perp" => return .perp
  | "para" => return .para
  | "cong" => return .cong
  | "midp" => return .midp
  | "coll" => return .coll
  | "between" => return .between
  | "onCirc" => return .onCircle
  | "concyc" => return .concyclic
  | id => throw (.unsupported .predicate id)

/-- The number of points. -/
def arity : RelationKind → Nat
  | perp | para | cong | concyclic => 4
  | midp | coll | between | onCircle => 3

end RelationKind

/-- A relation with its points. -/
inductive Relation (S : Type)
  /-- `ab` is perpendicular to `cd`. -/
  | perp (a b c d : Point S)
  /-- `ab` is parallel to `cd`. -/
  | para (a b c d : Point S)
  /-- `ab` is as long as `cd`. -/
  | cong (a b c d : Point S)
  /-- `m` is the midpoint of `ab`. -/
  | midp (m a b : Point S)
  /-- The points lie on a line. -/
  | coll (a b c : Point S)
  /-- `x` lies between `a` and `b`, well away from either. -/
  | between (x a b : Point S)
  /-- `x` lies on the circle around `o` through `a`. -/
  | onCircle (x o a : Point S)
  /-- `d` lies on the circle through `a`, `b` and `c`. -/
  | concyclic (a b c d : Point S)
  deriving DecidableEq, Repr

/-- The relation of a kind between given points, if there are as many as it takes. -/
def RelationKind.relation? {S : Type} : RelationKind → List (Point S) → Option (Relation S)
  | perp, [a, b, c, d] => some (.perp a b c d)
  | para, [a, b, c, d] => some (.para a b c d)
  | cong, [a, b, c, d] => some (.cong a b c d)
  | midp, [m, a, b] => some (.midp m a b)
  | coll, [a, b, c] => some (.coll a b c)
  | between, [x, a, b] => some (.between x a b)
  | onCircle, [x, o, a] => some (.onCircle x o a)
  | concyclic, [a, b, c, d] => some (.concyclic a b c d)
  | _, _ => none

variable {S R μ : Type} [Number R] [Scalar S R μ]

open PlaneFigure.Geometry in
/-- The residuals of a relation. -/
def Relation.residuals : Relation S → StateM μ (List S)
  | perp a b c d => return [← perpResidual a b c d]
  | para a b c d => return [← paraResidual a b c d]
  | cong a b c d => return [← congResidual a b c d]
  | midp m a b => return [← midpResidual m a b]
  | coll a b c => return [← collResidual a b c]
  | between x a b => do
    let (u, v) ← betweenResiduals x a b
    return [u, v]
  | onCircle x o a => return [← onCircleResidual x (.around o a)]
  | concyclic a b c d => return [← onCircleResidual d (.through a b c)]

end PlaneFigure
