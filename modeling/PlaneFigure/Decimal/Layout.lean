import PlaneFigure.Decimal.Shortest

/-!
How the shortest digits of a double are laid out as text.
-/

namespace PlaneFigure.Decimal

/-- The decisions of a number format. Numbers whose leading digit has an exponent from `plainFrom`
to below `plainBelow` are written positionally, all others with an exponent. -/
structure Layout where
  plainFrom : Int
  plainBelow : Int
  /-- Whether a positional integer ends in a point and a zero. -/
  pointZero : Bool

/-- The digits `ds`, the first of them with exponent `e`. -/
def Layout.digits (layout : Layout) (ds : List Char) (e : Int) : List Char :=
  if layout.plainFrom ≤ e ∧ e < layout.plainBelow then
    if e < 0 then '0' :: '.' :: List.replicate (-e - 1).toNat '0' ++ ds
    else
      let n := e.toNat + 1
      if ds.length ≤ n then
        ds ++ List.replicate (n - ds.length) '0' ++ (if layout.pointZero then ['.', '0'] else [])
      else ds.take n ++ '.' :: ds.drop n
  else
    let mantissa := match ds with
      | d :: d' :: rest => d :: '.' :: d' :: rest
      | _ => ds
    mantissa ++ 'e' :: (toString e).toList

/-- The text of a double. -/
def Layout.render (layout : Layout) (x : Float) : String :=
  if x.isNaN then "NaN"
  else
    let body :=
      if x.isInf then "inf"
      else
        let m := Magnitude.ofBits x.toBits
        if m.mantissa = 0 then String.ofList (layout.digits ['0'] 0)
        else
          let f := m.shortest
          let ds := (toString f.digits).toList
          String.ofList (layout.digits ds (f.exponent + ds.length - 1))
    if (x.toBits >>> 63) == 1 then "-" ++ body else body

end PlaneFigure.Decimal
