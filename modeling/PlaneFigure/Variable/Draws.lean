import PlaneFigure.Random.Seed
import PlaneFigure.Random.Uniform

/-!
Initial values of variables: pinned to a value by name, one constant for all, or drawn one after
the other from a seeded generator.
-/

namespace PlaneFigure

inductive InitialValues (R : Type)
  /-- Drawn uniformly from the range of each variable. -/
  | uniform (seed : UInt64)
  | constant (c : R)
  deriving DecidableEq, Repr

/-- Where the next initial value comes from. -/
structure Draws (R : Type) where
  initial : InitialValues R
  generator : Random.Generator
  /-- The values of pinned names; the first entry of a name counts. -/
  pins : List (String × R) := []
  deriving Repr

namespace Draws

variable {R : Type}

def start : InitialValues R → Draws R
  | .uniform seed => { initial := .uniform seed, generator := .ofSeed seed }
  | .constant c => { initial := .constant c, generator := .ofSeed 0 }

/-- Give every variable of a name the value `x`. -/
def pin (name : String) (x : R) (d : Draws R) : Draws R :=
  { d with pins := (name, x) :: d.pins }

variable [Number R] [Uniform R]

/-- The value of a variable for which nothing has to be drawn. -/
def fixed? (name : String) (range : Range R) (d : Draws R) : Option R :=
  match d.pins.lookup name, d.initial with
  | some x, _ => some x
  | none, .constant c => some c
  | none, .uniform _ => if Number.lt range.low range.high then none else some range.low

/-- The initial value of a variable. -/
def next (name : String) (range : Range R) : StateM (Draws R) R := fun d =>
  match d.fixed? name range with
  | some x => (x, d)
  | none =>
    let (word, generator) := d.generator.next
    (Uniform.draw range word, { d with generator })

/-- Whether `next` finds a range that it can draw from, if it has to draw. -/
def canDraw (name : String) (range : Range R) (d : Draws R) : Bool :=
  (d.fixed? name range).isSome || Uniform.drawable range

end Draws

end PlaneFigure
