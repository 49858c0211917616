import PlaneFigure.Decimal.Layout
import PlaneFigure.Graph.Order
import PlaneFigure.Graph.Value
import PlaneFigure.Text.Invisible

/-!
Formulas over doubles as text: a constant or a variable by itself, any other formula by its value
and its size.
-/

namespace PlaneFigure

/-- Numbers in summaries have a point or an exponent. -/
def summaryNumber : Decimal.Layout := ⟨-4, 16, true⟩

/-- A character of a quoted name. Quotes, backslashes and what does not show by itself are
escaped. -/
def escapeNameChar (c : Char) : List Char :=
  if c = '"' then ['\\', '"']
  else if c = '\\' then ['\\', '\\']
  else if c = '\t' then ['\\', 't']
  else if c = '\n' then ['\\', 'n']
  else if c = '\r' then ['\\', 'r']
  else if c = '\x00' then ['\\', '0']
  else if Text.isInvisible c then
    ['\\', 'u', '\x7b'] ++ Nat.toDigits 16 c.toNat ++ ['\x7d']
  else [c]

def quotedName (name : String) : String :=
  "\"" ++ String.ofList (name.toList.flatMap escapeNameChar) ++ "\""

/-- The summary of a formula, when variable `i` has the name `name i` and the value `ρ i`. -/
def Graph.summary (g : Graph Float) (name : Nat → String) (ρ : Nat → Float) (f : Formula Float) :
    String :=
  match g.nodes[f.root]? with
  | some (.const c) => "Const(" ++ summaryNumber.render c ++ ")"
  | some (.var i) => "Var(" ++ quotedName (name i) ++ ")"
  | _ =>
    "Expr \x7b value: " ++ summaryNumber.render (g.value ρ f) ++ ", nodes: " ++
      toString (g.nodeCount f) ++ " \x7d"

end PlaneFigure
