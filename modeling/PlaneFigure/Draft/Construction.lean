import PlaneFigure.Draft.Error
import PlaneFigure.Geometry.Center

/-!
Constructions of a point from other points, and their identifiers.
-/

namespace PlaneFigure

/-- What a computation constructs. -/
inductive ConstructionKind
  | midpoint | reflection | circumcenter | orthocenter | centroid | incenter
  /-- The intersection of two lines; all others take points. -/
  | intersection
  deriving DecidableEq, Repr

namespace ConstructionKind

def ofId : String → Except DraftError ConstructionKind
  | "midp" => return .midpoint
  | "midpFrom" => return .reflection
  | "circumcenter" => return .circumcenter
  | "orthocenter" => return .orthocenter
  | "centroid" => return .centroid
  | "incenter" => return .incenter
  | "interLL" => return .intersection
  | id => throw (.unsupported .computation id)

/-- The number of operands. -/
def arity : ConstructionKind → Nat
  | midpoint | reflection | intersection => 2
  | circumcenter | orthocenter | centroid | incenter => 3

end ConstructionKind

/-- A construction with its points. -/
inductive Construction (S : Type)
  | midpoint (a b : Point S)
  /-- The end of a segment with midpoint `m` whose other end is `a`. -/
  | reflection (m a : Point S)
  | circumcenter (a b c : Point S)
  | orthocenter (a b c : Point S)
  | centroid (a b c : Point S)
  | incenter (a b c : Point S)
  deriving DecidableEq, Repr

/-- The construction of a kind on given points, if there are as many as it takes. -/
def ConstructionKind.construction? {S : Type} :
    ConstructionKind → List (Point S) → Option (Construction S)
  | midpoint, [a, b] => some (.midpoint a b)
  | reflection, [m, a] => some (.reflection m a)
  | circumcenter, [a, b, c] => some (.circumcenter a b c)
  | orthocenter, [a, b, c] => some (.orthocenter a b c)
  | centroid, [a, b, c] => some (.centroid a b c)
  | incenter, [a, b, c] => some (.incenter a b c)
  | _, _ => none

variable {S R μ : Type} [Number R] [Scalar S R μ]

/-- The constructed point. -/
def Construction.point : Construction S → StateM μ (Point S)
  | midpoint a b => Geometry.midpoint a b
  | reflection m a => Geometry.reflect m a
  | circumcenter a b c => Geometry.circumcenter a b c
  | orthocenter a b c => Geometry.orthocenter a b c
  | centroid a b c => Geometry.centroid a b c
  | incenter a b c => Geometry.incenter a b c

/-- Ways to introduce a point with variables of its own. -/
inductive Parameterization
  /-- A variable for each coordinate. -/
  | coords
  deriving DecidableEq, Repr

def Parameterization.ofId : String → Except DraftError Parameterization
  | "coords" => return .coords
  | id => throw (.unsupported .parameterization id)

end PlaneFigure
