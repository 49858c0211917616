import PlaneFigure.Geometry.Line

/-!
The kinds of lines, their identifiers, and how many points each depends on.
-/

namespace PlaneFigure.Geometry

inductive LineKind
  | connecting | parallel | perpendicular | mediator
  | internalBisector | externalBisector | atAngle
  deriving DecidableEq, Repr

namespace LineKind

def ofId? : String → Option LineKind
  | "connecting" => some .connecting
  | "paraAt" => some .parallel
  | "perpAt" => some .perpendicular
  | "mediator" => some .mediator
  | "ibisector" => some .internalBisector
  | "ebisector" => some .externalBisector
  | "eqoangle" => some .atAngle
  | _ => none

def arity : LineKind → Nat
  | connecting | mediator => 2
  | parallel | perpendicular | internalBisector | externalBisector => 3
  | atAngle => 5

/-- The line of a kind on given points, if there are as many as it depends on. -/
def line? {S : Type} : LineKind → List (Point S) → Option (Line S)
  | connecting, [a, b] => some (.connecting a b)
  | parallel, [x, a, b] => some (.parallel x a b)
  | perpendicular, [x, a, b] => some (.perpendicular x a b)
  | mediator, [a, b] => some (.mediator a b)
  | internalBisector, [a, b, c] => some (.internalBisector a b c)
  | externalBisector, [a, b, c] => some (.externalBisector a b c)
  | atAngle, [b, c, d, e, f] => some (.atAngle b c d e f)
  | _, _ => none

end LineKind

end PlaneFigure.Geometry
