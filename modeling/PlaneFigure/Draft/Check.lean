import PlaneFigure.Draft.Construction
import PlaneFigure.Draft.Relation
import PlaneFigure.Draft.Table
import PlaneFigure.Geometry.LineKind
import PlaneFigure.Placement.Basic

/-!
Checking instructions against the points that are defined. What is left of an instruction after its
checks is an action, in which identifiers and names have given way to what they stand for. The
first check that fails decides the error.
-/

namespace PlaneFigure

/-- An instruction that passed its checks. -/
inductive Action (S : Type)
  | place (placement : Placement)
  | construct (name : String) (construction : Construction S)
  /-- The lines are kept as they were specified, for the case that they do not intersect. -/
  | intersect (name : String) (l m : LineSpec × Geometry.Line S)
  | relate (label : String) (relation : Relation S)

namespace PointTable

variable {S : Type} (t : PointTable S)

def get (name : String) : Except DraftError (Point S) :=
  match t.get? name with
  | some p => return p
  | none => throw (.undefinedPoint name)

/-- All names must be new and different from each other. -/
def fresh (names : List String) : Except DraftError Unit :=
  go [] names
where
  go (seen : List String) : List String → Except DraftError Unit
    | [] => return ()
    | name :: rest =>
      if t.contains name || seen.contains name then throw (.alreadyDefined name)
      else go (name :: seen) rest

/-- The line that is specified. -/
def line (spec : LineSpec) : Except DraftError (Geometry.Line S) :=
  match Geometry.LineKind.ofId? spec.pred with
  | none => throw (.unsupported .line spec.pred)
  | some kind =>
    if spec.points.length ≠ kind.arity then
      throw (.linePoints spec.pred kind.arity spec.points.length)
    else do
      match kind.line? (← spec.points.mapM t.get) with
      | some l => return l
      | none => throw (.linePoints spec.pred kind.arity spec.points.length)

/-- An operand that must be a point. -/
def operand (method : String) : Operand → Except DraftError (Point S)
  | .point name => t.get name
  | .line _ => throw (.lineOperand method)

def intersection (name : String) : List Operand → Except DraftError (Action S)
  | [.line l, .line m] => return .intersect name (l, ← t.line l) (m, ← t.line m)
  | _ => throw .notTwoLines

/-- The operands are looked up one by one before they are counted. -/
def construction (name : String) (kind : ConstructionKind) (c : Computation) :
    Except DraftError (Action S) := do
  let points ← c.operands.mapM (t.operand c.method)
  match kind.construction? points with
  | some construction => return .construct name construction
  | none => throw (.operandCount c.method kind.arity points.length)

def computation (name : String) (c : Computation) : Except DraftError (Action S) := do
  let kind ← ConstructionKind.ofId c.method
  t.fresh [name]
  if kind = .intersection then t.intersection name c.operands else t.construction name kind c

def constraint (c : Constraint) : Except DraftError (Action S) :=
  if c.negate then throw (.negated c.pred)
  else do
    let kind ← RelationKind.ofId c.pred
    if c.points.length ≠ kind.arity then
      throw (.relationPoints c.pred kind.arity c.points.length)
    else
      match kind.relation? (← c.points.mapM t.get) with
      | some relation => return .relate (c.pred ++ "_" ++ "_".intercalate c.points) relation
      | none => throw (.relationPoints c.pred kind.arity c.points.length)

/-- The action of an instruction, or the first thing that is wrong with it. -/
def check : Instruction → Except DraftError (Action S)
  | .sample points sampler args => do
    let sampler ← Sampler.ofId sampler args
    t.fresh points
    return .place (← Placement.ofSampler sampler points)
  | .compute point c => t.computation point c
  | .parameterize point id => do
    let .coords ← Parameterization.ofId id
    t.fresh [point]
    return .place (.free [point])
  | .assert c => t.constraint c

end PointTable

end PlaneFigure
