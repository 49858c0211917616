import PlaneFigure.Number

/-!
Gradient descent with a backtracking line search. The variables are moved in place: a trial step is
made before it is judged, and accepted if it lowers the loss by a fixed part of what the gradient
promises; when no trial is accepted, the variables are put back. The descent stops when the loss is
small enough, when it has nothing left to gain, or when its budget is spent.
-/

namespace PlaneFigure.Descent

/-- What is minimized: a loss of the values of all variables, the variables that may move, and the
derivatives of the loss by these. -/
structure Objective (R : Type) where
  loss : Array R → R
  moving : List Nat
  slope : Array R → List R

structure Settings (R : Type) where
  maxIterations : Nat
  /-- A loss below this is small enough. -/
  tolerance : R
  /-- The first step length, which later ones never exceed. -/
  initialStep : R
  /-- The factor on the step length after a trial that is not accepted. -/
  backtrack : R
  maxBacktracks : Nat
  /-- A gradient shorter than this, relative to the loss or one, counts as zero. -/
  minGradient : R
  deriving Repr

/-- The settings where nothing else is asked. -/
def Settings.standard {R : Type} [Number R] : Settings R where
  maxIterations := 5000
  tolerance := 1e-10
  initialStep := 1.0
  backtrack := 0.5
  maxBacktracks := 40
  minGradient := 1e-14

structure Report (R : Type) where
  converged : Bool
  finalLoss : R
  /-- The number of accepted steps. -/
  iterations : Nat
  deriving DecidableEq, Repr

inductive Outcome (R : Type)
  /-- The loss is small enough, or cannot be lowered. -/
  | settled (report : Report R)
  /-- The budget is spent. -/
  | exhausted (iterations : Nat) (loss : R)
  /-- There is no finite loss to start from. -/
  | notFinite
  deriving DecidableEq, Repr

/-- Where a descent stands. -/
structure Position (R : Type) where
  values : Array R
  /-- The loss at these values. -/
  loss : R
  /-- The length of the next trial step. -/
  step : R
  deriving Repr

variable {R : Type} [Number R]

/-- Put every moving variable a multiple `step` of its derivative away from where it started. -/
@[specialize]
def moveAll (moving : List Nat) (starts slope : List R) (step : R) (values : Array R) : Array R :=
  (moving.zip (starts.zip slope)).foldl
    (fun values (i, x, d) => values.setIfInBounds i (x - step * d)) values

/-- Put every moving variable back to where it started. -/
@[specialize]
def moveBack (moving : List Nat) (starts : List R) (values : Array R) : Array R :=
  (moving.zip starts).foldl (fun values (i, x) => values.setIfInBounds i x) values

/-- The part of the promised decrease that a step must achieve. -/
def sufficientDecrease : R := 1e-4

/-- The distance from one to the next double. -/
def precision : R := 2.220446049250313080847263336181640625e-16

/-- The size against which changes of a loss are measured. -/
@[inline] def scaleOf (loss : R) : R := Number.max (Number.abs loss) 1.0

/-- Whether a trial with step length `step` lowers the loss enough; `slopeSq` is the squared length
of the gradient. -/
@[inline] def acceptable (loss slopeSq step trial : R) : Bool :=
  Number.isFinite trial && Number.lt trial loss &&
    Number.le trial (loss - sufficientDecrease * step * slopeSq)

/-- An accepted trial: its loss, and the step length. -/
structure Trial (R : Type) where
  loss : R
  step : R

/-- The first acceptable one of at most `n` trials, with shorter and shorter steps from `starts`.
Every trial is made on the values themselves, which are left where the last one put them. -/
@[specialize]
def search (o : Objective R) (s : Settings R) (loss : R) (starts slope : List R) (slopeSq : R) :
    Nat → R → Array R → Option (Trial R) × Array R
  | 0, _, values => (none, values)
  | n + 1, step, values =>
    let values := moveAll o.moving starts slope step values
    let trial := o.loss values
    if acceptable loss slopeSq step trial then (some { loss := trial, step }, values)
    else search o s loss starts slope slopeSq n (step * s.backtrack) values

/-- Iteration `n`: the position after it and, if the descent ends with it, the report. -/
@[specialize]
def advance (o : Objective R) (s : Settings R) (n : Nat) (p : Position R) :
    Position R × Option (Report R) :=
  if Number.lt p.loss s.tolerance then
    (p, some { converged := true, finalLoss := p.loss, iterations := n })
  else
    let slope := o.slope p.values
    let slopeSq := Number.sum (slope.map fun d => d * d)
    if Number.lt (Number.sqrt slopeSq) (s.minGradient * scaleOf p.loss) then
      (p, some { converged := false, finalLoss := p.loss, iterations := n })
    else
      let starts := o.moving.map fun i => p.values.getD i 0.0
      match search o s p.loss starts slope slopeSq s.maxBacktracks p.step p.values with
      | (none, values) =>
        ({ p with values := moveBack o.moving starts values },
          some { converged := false, finalLoss := p.loss, iterations := n })
      | (some t, values) =>
        let next : Position R :=
          { values
            loss := t.loss
            step := Number.min (t.step / s.backtrack) s.initialStep }
        let stalled := Number.le (p.loss - t.loss) (precision * scaleOf t.loss) &&
          Number.le s.tolerance t.loss
        (next, if stalled then
          some { converged := false, finalLoss := t.loss, iterations := n + 1 } else none)

/-- Iterations from number `n` on, at most `k` of them; then the budget is spent. -/
@[specialize]
def descend (o : Objective R) (s : Settings R) :
    (k n : Nat) → Position R → Outcome R × Array R
  | 0, _, p =>
    if Number.lt p.loss s.tolerance then
      (.settled { converged := true, finalLoss := p.loss, iterations := s.maxIterations }, p.values)
    else (.exhausted s.maxIterations p.loss, p.values)
  | k + 1, n, p =>
    match advance o s n p with
    | (p, some report) => (.settled report, p.values)
    | (p, none) => descend o s k (n + 1) p

/-- Minimize from given values of the variables; also the values that are left in them. -/
@[specialize]
def minimize (o : Objective R) (s : Settings R) (values : Array R) : Outcome R × Array R :=
  let loss := o.loss values
  if !Number.isFinite loss then (.notFinite, values)
  else descend o s s.maxIterations 0 { values, loss, step := s.initialStep }

end PlaneFigure.Descent
