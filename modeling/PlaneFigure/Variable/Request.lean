import PlaneFigure.Random.Uniform

/-!
Requests for variables. A variable is a single number; the range of a request is where its initial
value is drawn from, not a bound on later values.
-/

namespace PlaneFigure

structure VariableRequest (R : Type) where
  name : String
  /-- The lengths of an array of numbers. Only requests for one number are granted. -/
  shape : List UInt64 := []
  range : Range R
  deriving Repr

/-- Why a variable is not created. The first two are refusals; the others are faults, which end the
program. -/
inductive VariableError (R : Type)
  | notScalar (name : String) (shape : List UInt64)
  | badRange (name : String) (range : Range R)
  /-- The lengths of a shape have a product that does not fit into 64 bits. -/
  | overflow (shape : List UInt64)
  /-- A number has to be drawn from a range that is too long for it. -/
  | undrawable (range : Range R)
  deriving Repr

namespace VariableRequest

variable {R : Type} [Number R]

/-- The product of two 64-bit numbers, if it is one too. -/
def product? (a b : UInt64) : Option UInt64 :=
  if a.toNat * b.toNat < UInt64.size then some (a * b) else none

/-- How many numbers a shape has. The lengths are multiplied from the left, and all products on the
way have to fit into 64 bits. -/
def count? (shape : List UInt64) : Option UInt64 := shape.foldlM product? 1

/-- The shape is looked at before the range; a range must have finite ends in order. -/
def validate (r : VariableRequest R) : Except (VariableError R) Unit :=
  match count? r.shape with
  | none => throw (.overflow r.shape)
  | some n =>
    if n ≠ 1 then throw (.notScalar r.name r.shape)
    else if !(Number.isFinite r.range.low && Number.isFinite r.range.high)
        || Number.lt r.range.high r.range.low then
      throw (.badRange r.name r.range)
    else return ()

end VariableRequest

namespace VariableError

def message {R : Type} [Uniform R] : VariableError R → String
  | notScalar name shape =>
    let lengths := ", ".intercalate (shape.map fun n => toString n.toNat)
    "variable `" ++ name ++ "`: only scalar variables are supported, got shape [" ++ lengths ++ "]"
  | badRange name range => "variable `" ++ name ++ "`: invalid bounds " ++ Uniform.text range
  | overflow _ => "attempt to multiply with overflow"
  | undrawable range => "no number can be drawn from " ++ Uniform.text range

end VariableError

end PlaneFigure
