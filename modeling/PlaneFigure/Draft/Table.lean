import PlaneFigure.NameMap
import PlaneFigure.Point

/-!
The tables that instructions fill: named points, and weighted residuals.
-/

namespace PlaneFigure

/-- The points by name, in the order in which they were added. -/
structure PointTable (S : Type) where
  entries : List (String × Point S) := []
  deriving Repr

namespace PointTable

variable {S R μ : Type}

def names (t : PointTable S) : List String := t.entries.map (·.1)

def get? (t : PointTable S) (name : String) : Option (Point S) := t.entries.lookup name

def contains (t : PointTable S) (name : String) : Bool := t.names.contains name

def append (t : PointTable S) (points : List (String × Point S)) : PointTable S :=
  ⟨t.entries ++ points⟩

/-- The coordinates of all points by name, when variable `i` has the value `ρ i`. -/
def resolve [Scalar S R μ] (m : μ) (ρ : Nat → R) (t : PointTable S) : NameMap (Point R) :=
  NameMap.ofEntries (t.entries.map fun (name, p) => (name, p.read m ρ))

end PointTable

/-- A residual, which is to vanish, and how much its square counts. -/
structure Loss (S R : Type) where
  residual : S
  weight : R
  deriving DecidableEq, Repr

namespace Loss

variable {S R μ : Type} [Number R] [Scalar S R μ]

/-- The square of the residual times the weight. -/
def weighted (l : Loss S R) : StateM μ S := do
  Scalar.mulConst (← Scalar.sq l.residual) l.weight

/-- The square of the residual as a number, without the weight. -/
@[inline] def value (m : μ) (ρ : Nat → R) (l : Loss S R) : R :=
  let r := Scalar.read m ρ l.residual
  r * r

end Loss

/-- The losses in the order in which they were added. Several may have one name. -/
structure LossTable (S R : Type) where
  entries : List (String × Loss S R) := []
  deriving Repr

namespace LossTable

variable {S R μ : Type}

/-- The first loss of a name. -/
def get? (t : LossTable S R) (name : String) : Option (Loss S R) := t.entries.lookup name

def append (t : LossTable S R) (losses : List (String × Loss S R)) : LossTable S R :=
  ⟨t.entries ++ losses⟩

variable [Number R] [Scalar S R μ]

/-- The weighted sum of the squared residuals. -/
def total (t : LossTable S R) : StateM μ S := do
  Scalar.sum (← t.entries.mapM fun (_, l) => l.weighted)

/-- The same sum as a number, when variable `i` has the value `ρ i`. -/
def totalValue (m : μ) (ρ : Nat → R) (t : LossTable S R) : R :=
  Number.sum (t.entries.map fun (_, l) => l.weight * l.value m ρ)

end LossTable

/-- What one instruction adds to the tables. -/
structure Addition (S R : Type) where
  points : List (String × Point S) := []
  losses : List (String × Loss S R) := []
  deriving Repr

end PlaneFigure
