import PlaneFigure.Json.Token

/-!
Reading documents. The tokens are consumed one by one by an automaton whose stack holds the
containers that are open; a document may nest at most 127 of them.
-/

namespace PlaneFigure.Json

/-- An open container that waits for a value: the earlier items or members, last first, and in an
object the name of the member. -/
inductive Frame
  | item (before : List Json)
  | member (before : List (String × Json)) (name : String)
  deriving Repr

/-- What may follow. -/
inductive ReaderState
  | value (stack : List Frame)
  | firstItem (stack : List Frame)
  | firstName (stack : List Frame)
  | name (members : List (String × Json)) (stack : List Frame)
  | colon (members : List (String × Json)) (name : String) (stack : List Frame)
  | afterItem (items : List Json) (stack : List Frame)
  | afterMember (members : List (String × Json)) (stack : List Frame)
  | done (value : Json)
  deriving Repr

/-- The greatest number of containers around a value. -/
def maxDepth : Nat := 127

/-- Complete a value inside the innermost open container. -/
def deliver (value : Json) : List Frame → ReaderState
  | [] => .done value
  | .item before :: stack => .afterItem (value :: before) stack
  | .member before name :: stack => .afterMember ((name, value) :: before) stack

/-- A token where a value is due. -/
def beginValue (stack : List Frame) : Token → Option ReaderState
  | .scalar v => some (deliver v stack)
  | .string s => some (deliver (.string (String.ofList s)) stack)
  | .openArray => if stack.length < maxDepth then some (.firstItem stack) else none
  | .openObject => if stack.length < maxDepth then some (.firstName stack) else none
  | _ => none

def ReaderState.step (state : ReaderState) (token : Token) : Option ReaderState :=
  match state, token with
  | .value stack, _ => beginValue stack token
  | .firstItem stack, .closeArray => some (deliver (.array []) stack)
  | .firstItem stack, _ => beginValue (.item [] :: stack) token
  | .firstName stack, .closeObject => some (deliver (.object []) stack)
  | .firstName stack, .string s => some (.colon [] (String.ofList s) stack)
  | .name members stack, .string s => some (.colon members (String.ofList s) stack)
  | .colon members key stack, .colon => some (.value (.member members key :: stack))
  | .afterItem items stack, .comma => some (.value (.item items :: stack))
  | .afterItem items stack, .closeArray => some (deliver (.array items.reverse) stack)
  | .afterMember members stack, .comma => some (.name members stack)
  | .afterMember members stack, .closeObject => some (deliver (.object members.reverse) stack)
  | _, _ => none

/-- The document that a list of tokens is. -/
def ofTokens? (ts : List Token) : Option Json :=
  match ts.foldlM ReaderState.step (.value []) with
  | some (.done value) => some value
  | _ => none

/-- The document that a text is. -/
def parse? (text : String) : Option Json :=
  (tokens text.toList).bind ofTokens?

end PlaneFigure.Json
