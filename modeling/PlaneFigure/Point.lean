import PlaneFigure.Scalar

/-!
Points of the plane with scalar coordinates, read as vectors where convenient.
-/

namespace PlaneFigure

structure Point (S : Type) where
  x : S
  y : S
  deriving DecidableEq, Repr

namespace Point

variable {S R μ : Type} [Scalar S R μ]

def add (a b : Point S) : StateM μ (Point S) :=
  return ⟨← Scalar.add a.x b.x, ← Scalar.add a.y b.y⟩

def sub (a b : Point S) : StateM μ (Point S) :=
  return ⟨← Scalar.sub a.x b.x, ← Scalar.sub a.y b.y⟩

def neg (a : Point S) : StateM μ (Point S) :=
  return ⟨← Scalar.neg a.x, ← Scalar.neg a.y⟩

/-- Both coordinates times one scalar. -/
def smul (a : Point S) (k : S) : StateM μ (Point S) :=
  return ⟨← Scalar.mul a.x k, ← Scalar.mul a.y k⟩

/-- Both coordinates times one number. -/
def scale (a : Point S) (k : R) : StateM μ (Point S) :=
  return ⟨← Scalar.mulConst a.x k, ← Scalar.mulConst a.y k⟩

def const (x y : R) : StateM μ (Point S) :=
  return ⟨← Scalar.const x, ← Scalar.const y⟩

/-- The two coordinates are simplified independently of each other. -/
def simplify (how : RuleSet) (a : Point S) : StateM μ (Point S) :=
  return ⟨← Scalar.simplify how a.x, ← Scalar.simplify how a.y⟩

/-- The coordinates when variable `i` has the value `ρ i`. -/
def read (m : μ) (ρ : Nat → R) (a : Point S) : Point R :=
  ⟨Scalar.read m ρ a.x, Scalar.read m ρ a.y⟩

end Point

end PlaneFigure
