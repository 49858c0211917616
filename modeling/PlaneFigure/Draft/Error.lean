import PlaneFigure.Instruction.Basic

/-!
Why an instruction is refused.
-/

namespace PlaneFigure

/-- What an identifier names. -/
inductive MethodKind
  | sampling | computation | parameterization | predicate | line
  deriving DecidableEq, Repr

def MethodKind.name : MethodKind → String
  | sampling => "sampling"
  | computation => "computation"
  | parameterization => "parameterization"
  | predicate => "predicate"
  | line => "line"

inductive DraftError
  | unsupported (kind : MethodKind) (id : String)
  | undefinedPoint (name : String)
  | alreadyDefined (name : String)
  /-- A sampler that needs to be told a vertex was told none. -/
  | noVertex (sampler : String)
  | fewVertices (given : Nat)
  | notThreePoints (given : Nat)
  /-- The vertex of a triangle's shape is none of its vertices. -/
  | notAVertex (vertex a b c : String)
  | lineOperand (method : String)
  | operandCount (method : String) (expected given : Nat)
  | notTwoLines
  | linePoints (pred : String) (expected given : Nat)
  | negated (pred : String)
  | relationPoints (pred : String) (expected given : Nat)
  | parallelLines (l m : LineSpec)
  /-- A variable that a sampler needs was refused. -/
  | refusedVariable (reason : String)
  deriving DecidableEq, Repr

/-- The four classes of errors. -/
inductive ErrorClass
  | unsupportedMethod | undefinedPoint | contractViolation | numericDegeneracy
  deriving DecidableEq, Repr

namespace DraftError

/-- An error is one of the instruction, but for parallel lines, which other values may avoid. -/
def kind : DraftError → ErrorClass
  | unsupported _ _ => .unsupportedMethod
  | undefinedPoint _ => .undefinedPoint
  | parallelLines _ _ => .numericDegeneracy
  | _ => .contractViolation

/-- A name in quotes. -/
def quote (name : String) : String := "`" ++ name ++ "`"

/-- A line in messages: its identifier and its points. -/
def lineText (l : LineSpec) : String := l.pred ++ "(" ++ ", ".intercalate l.points ++ ")"

def takes (what thing : String) (expected given : Nat) : String :=
  what ++ " takes " ++ toString expected ++ " " ++ thing ++ ", got " ++ toString given

/-- What is wrong, without the class of the error. -/
def reason : DraftError → String
  | unsupported kind id => kind.name ++ " method " ++ quote id
  | undefinedPoint name => "point " ++ quote name
  | alreadyDefined name => "point " ++ quote name ++ " is already defined"
  | noVertex sampler => "sampler " ++ quote sampler ++ " needs the shape vertex as args[0]"
  | fewVertices given => "polygon sampling needs at least 3 points, got " ++ toString given
  | notThreePoints given => "triangle sampling needs 3 points, got " ++ toString given
  | notAVertex v a b c =>
    "shape vertex " ++ quote v ++ " is not one of " ++ a ++ ", " ++ b ++ ", " ++ c
  | lineOperand method => quote method ++ " takes point operands, got a line"
  | operandCount method expected given => takes (quote method) "operands" expected given
  | notTwoLines => "`interLL` takes exactly two line operands"
  | linePoints pred expected given => takes ("line " ++ quote pred) "points" expected given
  | negated pred => "negated " ++ quote pred ++ " assertion reached the compiler"
  | relationPoints pred expected given => takes (quote pred) "points" expected given
  | parallelLines l m =>
    "lines " ++ lineText l ++ " and " ++ lineText m ++ " are parallel or degenerate"
  | refusedVariable reason => reason

def message (e : DraftError) : String :=
  match e.kind with
  | .unsupportedMethod => "unsupported " ++ e.reason
  | .undefinedPoint => "undefined " ++ e.reason
  | .contractViolation => "contract violation: " ++ e.reason
  | .numericDegeneracy => "numeric degeneracy: " ++ e.reason

end DraftError

end PlaneFigure
