/-!
Documents of the exchange format: null, truth values, numbers, strings, arrays, and objects as
lists of members in the order in which they stand.
-/

namespace PlaneFigure

/-- A document. A number is kept as it is written; a name may occur in several members. -/
inductive Json
  | null
  | bool (b : Bool)
  | number (literal : String)
  | string (s : String)
  | array (items : List Json)
  | object (members : List (String × Json))
  deriving Repr, Inhabited

namespace Json

def nat (n : Nat) : Json := .number (toString n)

def strings (xs : List String) : Json := .array (xs.map .string)

/-- What is known of a name in a list of members. -/
inductive Occurrence
  | absent
  | once (value : Json)
  | repeated

/-- How often, and with which value, a name occurs. -/
def occurrence (name : String) (members : List (String × Json)) : Occurrence :=
  match members.filter (·.1 = name) with
  | [] => .absent
  | [(_, value)] => .once value
  | _ => .repeated

def string? : Json → Option String
  | .string s => some s
  | _ => none

def bool? : Json → Option Bool
  | .bool b => some b
  | _ => none

def strings? : Json → Option (List String)
  | .array xs => xs.mapM string?
  | _ => none

end Json

end PlaneFigure
