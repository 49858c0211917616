import PlaneFigure.Draft.Error

/-!
Samplers: ways to place several points at once.
-/

namespace PlaneFigure

/-- What is asked of a triangle. -/
structure TriangleShape where
  /-- The apex of an isosceles triangle. -/
  iso : Option String := none
  /-- The vertex of the right angle. -/
  right : Option String := none
  acute : Bool := false
  equi : Bool := false
  deriving DecidableEq, Repr

namespace TriangleShape

/-- Whether nothing is asked. -/
def isPlain (s : TriangleShape) : Bool :=
  s.iso.isNone && s.right.isNone && !s.acute && !s.equi

/-- The vertex that the shape singles out. -/
def vertex? (s : TriangleShape) : Option String := s.iso <|> s.right

end TriangleShape

inductive Sampler
  /-- Free points. -/
  | uniform
  /-- A polygon that is nearly regular. -/
  | polygon
  | triangle (shape : TriangleShape)
  deriving DecidableEq, Repr

namespace Sampler

/-- The vertex that the arguments of a sampler name. -/
def vertex (id : String) : List String → Except DraftError String
  | [] => throw (.noVertex id)
  | v :: _ => return v

def ofId (id : String) (args : List String) : Except DraftError Sampler :=
  match id with
  | "uniform" => return .uniform
  | "polygon" => return .polygon
  | "triangle" => return .triangle {}
  | "isoTri" => return .triangle { iso := some (← vertex id args) }
  | "acuteTri" => return .triangle { acute := true }
  | "acuteIsoTri" => return .triangle { iso := some (← vertex id args), acute := true }
  | "rightTri" => return .triangle { right := some (← vertex id args) }
  | "equiTri" => return .triangle { equi := true }
  | _ => throw (.unsupported .sampling id)

end Sampler

end PlaneFigure
