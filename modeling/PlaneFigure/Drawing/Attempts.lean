import PlaneFigure.Descent.Formula
import PlaneFigure.Draft.Basic
import PlaneFigure.Drawing.Basic
import PlaneFigure.Graph.Recording

/-!
Solving drafts. A drawing is sought from several seeds in turn, until a descent converges; if none
does, the drawing with the least loss is taken.
-/

namespace PlaneFigure

/-- How a drawing is sought. -/
structure DrawingSettings where
  draft : DraftSettings Float
  descent : Descent.Settings Float

/-- A draft whose scalars are formulas. -/
abbrev FormulaDraft := Draft (Formula Float) Float (Graph Float)

/-- The report of an outcome. A loss that is not finite is reported as not a number. -/
def Descent.Outcome.report : Descent.Outcome Float → Descent.Report Float
  | .settled report => report
  | .exhausted iterations loss => { converged := false, finalLoss := loss, iterations }
  | .notFinite => { converged := false, finalLoss := 0.0 / 0.0, iterations := 0 }

/-- Lower the total loss of a draft over all of its variables. -/
def FormulaDraft.minimize (s : Descent.Settings Float) (d : FormulaDraft) :
    Descent.Outcome Float × FormulaDraft :=
  let (loss, d) := (Draft.total : StateM FormulaDraft (Formula Float)) d
  let objective := Descent.Objective.ofFormula d.canvas.memory loss
    (List.range d.canvas.vars.size)
  let (outcome, values) := Descent.minimize objective s (d.canvas.vars.map (·.value))
  (outcome, { d with canvas := d.canvas.setAll values })

/-- The drawing that a draft makes with the current values of its variables. -/
def FormulaDraft.drawing (seed : UInt64) (report : Descent.Report Float) (d : FormulaDraft) :
    Drawing :=
  let c := d.canvas
  { seed
    points := d.resolve
    vars := NameMap.ofEntries (c.vars.toList.map fun v => (v.name, v.value))
    losses := d.losses.entries.map fun (name, l) =>
      { name, weight := l.weight, value := l.value c.memory c.assignment }
    report }

/-- The drawing of a seed, from which the initial values of all variables are drawn. -/
def Drawing.attempt (s : DrawingSettings) (is : List Instruction) (seed : UInt64) :
    Except DraftError Drawing := do
  let canvas := Canvas.start Graph.empty (.uniform seed)
  let d : FormulaDraft ← Draft.ofInstructions canvas s.draft is
  let (outcome, d) := FormulaDraft.minimize s.descent d
  return FormulaDraft.drawing seed outcome.report d

/-- The bit that is set in negative doubles. -/
def signBit : Nat := 0x8000000000000000

/-- The place of a double in the order of all doubles that are numbers. -/
def orderKey (x : Float) : Int :=
  let bits := x.toBits.toNat
  if bits < signBit then bits else (signBit : Int) - 1 - bits

/-- Whether one loss is less than another; what is not a number is greater than all numbers. -/
def lessLoss (a b : Float) : Bool :=
  if a.isNaN then false else if b.isNaN then true else orderKey a < orderKey b

/-- The drawing with the lesser loss; the earlier of two equal ones. -/
def Drawing.better (best : Option Drawing) (d : Drawing) : Drawing :=
  match best with
  | none => d
  | some b => if lessLoss d.report.finalLoss b.report.finalLoss then d else b

/-- Why there is no drawing. -/
inductive DrawingError
  | refused (e : DraftError)
  /-- Every attempt met parallel lines. -/
  | degenerate

/-- At most `n` attempts from a seed on, the best drawing so far being `best`. Only parallel lines,
which other values may avoid, lead to a further attempt. -/
def Drawing.seek (attempt : UInt64 → Except DraftError Drawing) :
    Nat → UInt64 → Option Drawing → Except DrawingError Drawing
  | 0, _, some best => return best
  | 0, _, none => throw .degenerate
  | n + 1, seed, best =>
    match attempt seed with
    | .ok d => if d.report.converged then return d else seek attempt n (seed + 1) (better best d)
    | .error e =>
      if e.kind = .numericDegeneracy then seek attempt n (seed + 1) best else throw (.refused e)

/-- A drawing of a figure; at least one attempt is made. -/
def Drawing.build (s : DrawingSettings) (is : List Instruction) (seed : UInt64) (attempts : Nat) :
    Except DrawingError Drawing :=
  seek (attempt s is) (max attempts 1) seed none

end PlaneFigure
