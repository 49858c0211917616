import PlaneFigure.Instruction.Basic
import PlaneFigure.Json.Reader
import PlaneFigure.Json.Writer

/-!
Instructions as documents. A record is an object with its fields as members, or the array of its
fields in order. Members of other names mean nothing; a field may not occur twice, and only a
field with a default may be absent, in an array only at the end.
-/

namespace PlaneFigure

namespace Json

/-- What a list of members says of a field; nothing if the field occurs twice. -/
def field? (members : List (String × Json)) (name : String) : Option (Option Json) :=
  match occurrence name members with
  | .absent => some none
  | .once value => some (some value)
  | .repeated => none

/-- The fields of a record, in the order of their names; those that are absent are `none`. -/
def record? (names : List String) : Json → Option (List (Option Json))
  | .object members => names.mapM (field? members)
  | .array items =>
    if names.length < items.length then none
    else some (items.map some ++ List.replicate (names.length - items.length) none)
  | _ => none

/-- The kind of a record that may be of several kinds, and the record without it. An array has it in
front of the fields. -/
def tagged? : Json → Option (String × Json)
  | .object members =>
    match occurrence "kind" members with
    | .once (.string kind) => some (kind, .object members)
    | _ => none
  | .array (.string kind :: items) => some (kind, .array items)
  | _ => none

/-- A field with a default. -/
def orElse? {α : Type} (default : α) (read : Json → Option α) : Option Json → Option α
  | none => some default
  | some value => read value

end Json

namespace LineSpec

def ofJson? (j : Json) : Option LineSpec := do
  match ← j.record? ["pred", "points"] with
  | [some pred, some points] => return ⟨← pred.string?, ← points.strings?⟩
  | _ => none

def toJson (l : LineSpec) : Json :=
  .object [("pred", .string l.pred), ("points", .strings l.points)]

end LineSpec

namespace Operand

def ofJson? : Json → Option Operand
  | .string name => some (.point name)
  | j => (LineSpec.ofJson? j).map .line

def toJson : Operand → Json
  | point name => .string name
  | line spec => spec.toJson

end Operand

namespace Computation

def ofJson? (j : Json) : Option Computation := do
  match ← j.record? ["method", "operands"] with
  | [some method, some (.array operands)] =>
    return ⟨← method.string?, ← operands.mapM Operand.ofJson?⟩
  | _ => none

def toJson (c : Computation) : Json :=
  .object [("method", .string c.method), ("operands", .array (c.operands.map Operand.toJson))]

end Computation

namespace Constraint

def ofJson? (j : Json) : Option Constraint := do
  match ← j.record? ["pred", "points", "negate"] with
  | [some pred, some points, negate] =>
    return ⟨← pred.string?, ← points.strings?, ← Json.orElse? false Json.bool? negate⟩
  | _ => none

def toJson (c : Constraint) : Json :=
  .object [("pred", .string c.pred), ("points", .strings c.points), ("negate", .bool c.negate)]

end Constraint

namespace Instruction

/-- The fields of an instruction of each kind. -/
def fields : String → Option (List String)
  | "sample" => some ["points", "sampler", "args"]
  | "compute" => some ["point", "computation"]
  | "parameterize" => some ["point", "parameterization"]
  | "assert" => some ["constraint"]
  | _ => none

/-- The instruction of a kind with given fields. -/
def ofFields? : String → List (Option Json) → Option Instruction
  | "sample", [some points, some sampler, args] =>
    return .sample (← points.strings?) (← sampler.string?) (← Json.orElse? [] Json.strings? args)
  | "compute", [some point, some computation] =>
    return .compute (← point.string?) (← Computation.ofJson? computation)
  | "parameterize", [some point, some parameterization] =>
    return .parameterize (← point.string?) (← parameterization.string?)
  | "assert", [some constraint] => return .assert (← Constraint.ofJson? constraint)
  | _, _ => none

def ofJson? (j : Json) : Option Instruction := do
  let (kind, record) ← j.tagged?
  ofFields? kind (← record.record? (← fields kind))

/-- An instruction as an object with all of its fields. -/
def toJson : Instruction → Json
  | sample points sampler args =>
    .object [("kind", .string "sample"), ("points", .strings points), ("sampler", .string sampler),
      ("args", .strings args)]
  | compute point computation =>
    .object [("kind", .string "compute"), ("point", .string point),
      ("computation", computation.toJson)]
  | parameterize point parameterization =>
    .object [("kind", .string "parameterize"), ("point", .string point),
      ("parameterization", .string parameterization)]
  | assert constraint =>
    .object [("kind", .string "assert"), ("constraint", constraint.toJson)]

/-- A list of instructions is an array. -/
def listOfJson? : Json → Option (List Instruction)
  | .array items => items.mapM ofJson?
  | _ => none

def listToJson (is : List Instruction) : Json := .array (is.map toJson)

/-- The instructions that a text holds. -/
def parse? (text : String) : Option (List Instruction) := (Json.parse? text).bind listOfJson?

/-- Instructions as text. -/
def render (is : List Instruction) : String := (listToJson is).render

end Instruction

end PlaneFigure
