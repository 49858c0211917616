import PlaneFigure.Draft.Check
import PlaneFigure.Draft.Regularizer

/-!
Drafts: a canvas with the points and losses that instructions have put on it. Instructions work on
the canvas of the draft itself; what they add to the tables is held back until they have succeeded.
-/

namespace PlaneFigure

structure DraftSettings (R : Type) where
  /-- The weight of the mean distance from the origin; none unless positive. -/
  regularizePoints : R
  /-- The weight of the mean closeness of points; none unless positive. -/
  makeDistinct : R
  /-- How small the determinant of two lines may be, relative to the lengths of their directions. -/
  degeneracy : R
  deriving Repr

/-- The settings where nothing else is asked. -/
def DraftSettings.standard {R : Type} [Number R] : DraftSettings R where
  regularizePoints := 0.0
  makeDistinct := 0.0
  degeneracy := 1e-12

structure Draft (S R μ : Type) where
  canvas : Canvas R μ
  settings : DraftSettings R
  points : PointTable S := {}
  losses : LossTable S R := {}

section Actions

variable {S R μ : Type} [Number R] [Scalar S R μ]

/-- The losses of a relation: one under its label, or several of the same weight under numbered
labels. -/
def Relation.losses (label : String) (r : Relation S) : StateM μ (List (String × Loss S R)) := do
  match ← r.residuals with
  | [x] => return [(label, ⟨x, 1.0⟩)]
  | xs =>
    let weight := 1.0 / Number.ofNat xs.length
    return xs.mapIdx fun i x => (label ++ "_" ++ toString i, ⟨x, weight⟩)

/-- Whether two lines are far enough from parallel, by the current values of their points. -/
def transversal (degeneracy : R) (c : Canvas R μ) (det : S) (d e : Point S) : Bool :=
  let d := d.read c.memory c.assignment
  let e := e.read c.memory c.assignment
  Number.lt (degeneracy * (Number.hypotenuse d.x d.y * Number.hypotenuse e.x e.y))
    (Number.abs (c.value det))

/-- The intersection of two lines, unless they are parallel. -/
def checkedIntersection (degeneracy : R) (l m : LineSpec × Geometry.Line S) :
    StateM (Canvas R μ) (Except DraftError (Point S)) := do
  let p ← (l.2.points : StateM μ _)
  let q ← (m.2.points : StateM μ _)
  let det ← (p.det q : StateM μ S)
  let d ← (p.direction : StateM μ (Point S))
  let e ← (q.direction : StateM μ (Point S))
  if transversal degeneracy (← get) det d e then
    return .ok (← (p.intersection q : StateM μ (Point S)))
  else return .error (.parallelLines l.1 m.1)

/-- What an action adds to the tables. -/
def Action.run [Uniform R] (degeneracy : R) :
    Action S → StateM (Canvas R μ) (Except DraftError (Addition S R))
  | place placement => do
    match ← placement.place.run with
    | .ok a => return .ok a
    | .error e => return .error (.refusedVariable e.message)
  | construct name c => return .ok { points := [(name, ← (c.point : StateM μ (Point S)))] }
  | intersect name l m => do
    match ← checkedIntersection degeneracy l m with
    | .ok p => return .ok { points := [(name, p)] }
    | .error e => return .error e
  | relate label r => return .ok { losses := ← (r.losses label : StateM μ _) }

end Actions

namespace Draft

variable {S R μ : Type} [Number R]

/-- The current values of all points. -/
def resolve [Scalar S R μ] (d : Draft S R μ) : NameMap (Point R) :=
  d.points.resolve d.canvas.memory d.canvas.assignment

/-- The weighted sum of the squared residuals as a number. -/
def totalValue [Scalar S R μ] (d : Draft S R μ) : R :=
  d.losses.totalValue d.canvas.memory d.canvas.assignment

/-- The weighted sum of the squared residuals as a scalar, recorded on the canvas. -/
def total [Scalar S R μ] : StateM (Draft S R μ) S := fun d =>
  let (x, memory) := (d.losses.total : StateM μ S) d.canvas.memory
  (x, { d with canvas.memory := memory })

def add (a : Addition S R) (d : Draft S R μ) : Draft S R μ :=
  { d with points := d.points.append a.points, losses := d.losses.append a.losses }

variable [Uniform R] [Scalar S R μ]

/-- Carry out an instruction. If it is refused, the tables stay as they are and what it recorded is
dropped, but variables that it created and numbers that it drew would stay. -/
def process (i : Instruction) : StateM (Draft S R μ) (Except DraftError (Addition S R)) := fun d =>
  match d.points.check i with
  | .error e => (.error e, d)
  | .ok action =>
    match action.run d.settings.degeneracy d.canvas with
    | (.ok a, canvas) => (.ok a, { d.add a with canvas })
    | (.error e, canvas) =>
      (.error e, { d with canvas := { canvas with memory := d.canvas.memory } })

/-- Carry out instructions up to the first that is refused. -/
def processAll : List Instruction → Draft S R μ → Except DraftError (Draft S R μ)
  | [], d => return d
  | i :: rest, d =>
    match process i d with
    | (.ok _, d) => processAll rest d
    | (.error e, _) => throw e

/-- A loss on all points, if it has a positive weight and there are points enough. -/
def regularize (label : String) (weight : R) (enough : Bool)
    (residual : List (Point S) → StateM μ S) (d : Draft S R μ) : Draft S R μ :=
  if Number.lt 0.0 weight && enough then
    let (x, memory) := residual (d.points.entries.map (·.2)) d.canvas.memory
    { d with canvas.memory := memory, losses := d.losses.append [(label, ⟨x, weight⟩)] }
  else d

/-- Add the losses on all points that the settings ask for. -/
def finish (d : Draft S R μ) : Draft S R μ :=
  let n := d.points.entries.length
  let d := d.regularize "points-norm" d.settings.regularizePoints (0 < n) Regularizer.meanNorm
  d.regularize "points-distinct" d.settings.makeDistinct (1 < n) Regularizer.meanCloseness

/-- The draft that instructions describe, on a given canvas. -/
def ofInstructions (canvas : Canvas R μ) (settings : DraftSettings R) (is : List Instruction) :
    Except DraftError (Draft S R μ) :=
  return (← processAll is { canvas, settings }).finish

end Draft

end PlaneFigure
