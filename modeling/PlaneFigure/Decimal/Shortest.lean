import PlaneFigure.Decimal.Binary

/-!
The shortest decimal fraction that reads back as a given double, and of those the nearest to it; of
two that are equally near, the larger.
-/

namespace PlaneFigure.Decimal

/-- Compare `f` with `n * 2 ^ e`. -/
def Fraction.compareBinary (f : Fraction) (n : Nat) (e : Int) : Ordering :=
  compare (f.digits * tens f.exponent.toNat * twos (-e).toNat)
    (n * twos e.toNat * tens (-f.exponent).toNat)

/-- Whether `f` lies among the numbers whose nearest double is `x`: from halfway to the double below
to halfway to the double above, the ends included if the mantissa is even. -/
def Magnitude.reads (x : Magnitude) (f : Fraction) : Bool :=
  let below := f.compareBinary (4 * x.mantissa - if x.halfBelow then 1 else 2) (x.exponent - 2)
  let above := f.compareBinary (4 * x.mantissa + 2) (x.exponent - 2)
  if x.mantissa % 2 = 0 then below != .lt && above != .gt else below == .gt && above == .lt

/-- The multiple of `10 ^ s` next to `x` that reads back, if one of the two neighbours does; of
both, the nearer. -/
def Magnitude.onGrid (x : Magnitude) (s : Int) : Option Fraction :=
  let r := scaled x.ratio (-s)
  let low : Fraction := ⟨r.1 / r.2, s⟩
  let high : Fraction := ⟨r.1 / r.2 + 1, s⟩
  match x.reads low, x.reads high with
  | true, true => some (if 2 * (r.1 % r.2) < r.2 then low else high)
  | true, false => some low
  | false, true => some high
  | false, false => none

/-- The first grid with a hit, from grids of `n` digits on, among the next `tries`. -/
def Magnitude.search (x : Magnitude) (n : Nat) : Nat → Option Fraction
  | 0 => none
  | tries + 1 =>
    match x.onGrid (x.leading - n + 1) with
    | some f => some f
    | none => x.search (n + 1) tries

/-- Move trailing zeros into the exponent, at most `n` of them. -/
def Fraction.strip (f : Fraction) : Nat → Fraction
  | 0 => f
  | n + 1 =>
    if f.digits % 10 = 0 ∧ f.digits ≠ 0 then Fraction.strip ⟨f.digits / 10, f.exponent + 1⟩ n
    else f

/-- The shortest decimal fraction that reads back as a positive number. Seventeen digits are
enough; the exact value stands in where the search would find nothing. -/
def Magnitude.shortest (x : Magnitude) : Fraction :=
  match x.search 1 17 with
  | some f => f.strip 17
  | none => ⟨x.mantissa * twos x.exponent.toNat * Nat.pow 5 (-x.exponent).toNat, min x.exponent 0⟩

end PlaneFigure.Decimal
