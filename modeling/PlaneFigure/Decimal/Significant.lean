import PlaneFigure.Decimal.Binary

/-!
Doubles with a fixed number of significant digits, rounded from the exact value, ties to even.
-/

namespace PlaneFigure.Decimal

/-- The digits of `x`, `n` of them, and the exponent of the first. A carry out of the leading
digit moves the exponent. -/
def Magnitude.significant (x : Magnitude) (n : Nat) : Nat × Int :=
  let k := x.leading
  let r := scaled x.ratio (n - 1 - k)
  let q := roundDiv r.1 r.2
  if q = tens n then (tens (n - 1), k + 1) else (q, k)

/-- A decimal number as text: first digit, point, further digits, and the exponent. -/
def scientific (digits : Nat) (exponent : Int) : String :=
  match (toString digits).toList with
  | [] => ""
  | [d] => String.ofList [d] ++ "e" ++ toString exponent
  | d :: ds => String.ofList (d :: '.' :: ds) ++ "e" ++ toString exponent

/-- A finite double other than zero with `n` significant digits. -/
def significantText (x : Float) (n : Nat) : String :=
  let (digits, k) := (Magnitude.ofBits x.toBits).significant n
  (if x < 0.0 then "-" else "") ++ scientific digits k

end PlaneFigure.Decimal
