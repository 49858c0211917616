/-!
Instructions: what a figure consists of, in the order in which it is built. Methods are named by
identifiers and points by names; neither need exist.
-/

namespace PlaneFigure

/-- A line by an identifier and the points it depends on. -/
structure LineSpec where
  pred : String
  points : List String
  deriving DecidableEq, Repr

inductive Operand
  | point (name : String)
  | line (spec : LineSpec)
  deriving DecidableEq, Repr

structure Computation where
  method : String
  operands : List Operand
  deriving DecidableEq, Repr

structure Constraint where
  pred : String
  points : List String
  negate : Bool
  deriving DecidableEq, Repr

inductive Instruction
  /-- Place several points at once. -/
  | sample (points : List String) (sampler : String) (args : List String)
  /-- Construct a point from others. -/
  | compute (point : String) (computation : Computation)
  /-- Introduce a point with coordinates of its own. -/
  | parameterize (point : String) (parameterization : String)
  /-- Require a relation between points. -/
  | assert (constraint : Constraint)
  deriving DecidableEq, Repr

end PlaneFigure
