import PlaneFigure.Number

/-!
Scalars: what constructions compute with. A scalar may be a number, or a handle on a formula that
some memory records; every operation is a step on that memory. Code written over `Scalar` runs on
numbers and records formulas alike.
-/

namespace PlaneFigure

inductive UnaryOp
  | neg | sqrt | sin | cos | acos | tanh | sigmoid
  deriving DecidableEq, Repr

inductive BinaryOp
  | add | sub | mul | div | max
  deriving DecidableEq, Repr

/-- Which rules of simplification apply: all of them, or the symmetries of sine and cosine (and
double negation) only. -/
inductive RuleSet
  | all | trig
  deriving DecidableEq, Repr

@[inline] def UnaryOp.apply {R : Type} [Number R] (op : UnaryOp) (x : R) : R :=
  match op with
  | .neg => -x
  | .sqrt => Number.sqrt x
  | .sin => Number.sin x
  | .cos => Number.cos x
  | .acos => Number.acos x
  | .tanh => Number.tanh x
  | .sigmoid => Number.sigmoid x

@[inline] def BinaryOp.apply {R : Type} [Number R] (op : BinaryOp) (x y : R) : R :=
  match op with
  | .add => x + y
  | .sub => x - y
  | .mul => x * y
  | .div => x / y
  | .max => Number.max x y

/-- Scalars `S` with values in `R`, whose operations may change a memory `μ`. -/
class Scalar (S : Type) (R μ : outParam Type) where
  const : R → StateM μ S
  /-- The variable numbered `i`, whose initial value is given. -/
  free : Nat → R → StateM μ S
  unary : UnaryOp → S → StateM μ S
  binary : BinaryOp → S → S → StateM μ S
  /-- A scalar of the same value with fewer operations, where scalars are recorded at all. -/
  simplify : RuleSet → S → StateM μ S
  /-- The value of a scalar when variable `i` has the value `ρ i`. -/
  read : μ → (Nat → R) → S → R

/-- Numbers are scalars that need no memory. -/
instance {R : Type} [Number R] : Scalar R R Unit where
  const c := pure c
  free _ x := pure x
  unary op x := pure (op.apply x)
  binary op x y := pure (op.apply x y)
  simplify _ x := pure x
  read _ _ x := x

namespace Scalar

variable {S R μ : Type} [Scalar S R μ]

@[inline] def add (x y : S) : StateM μ S := binary .add x y
@[inline] def sub (x y : S) : StateM μ S := binary .sub x y
@[inline] def mul (x y : S) : StateM μ S := binary .mul x y
@[inline] def div (x y : S) : StateM μ S := binary .div x y
@[inline] def larger (x y : S) : StateM μ S := binary .max x y
@[inline] def neg (x : S) : StateM μ S := unary .neg x
@[inline] def sqrt (x : S) : StateM μ S := unary .sqrt x
@[inline] def sin (x : S) : StateM μ S := unary .sin x
@[inline] def cos (x : S) : StateM μ S := unary .cos x
@[inline] def acos (x : S) : StateM μ S := unary .acos x
@[inline] def tanh (x : S) : StateM μ S := unary .tanh x
@[inline] def sigmoid (x : S) : StateM μ S := unary .sigmoid x

/-- The square, with one scalar as both factors. -/
@[inline] def sq (x : S) : StateM μ S := mul x x

/-- An operation whose right operand is a number. -/
def binaryConst (op : BinaryOp) (x : S) (c : R) : StateM μ S := do
  binary op x (← const c)

@[inline] def addConst (x : S) (c : R) : StateM μ S := binaryConst .add x c
@[inline] def subConst (x : S) (c : R) : StateM μ S := binaryConst .sub x c
@[inline] def mulConst (x : S) (c : R) : StateM μ S := binaryConst .mul x c
@[inline] def divConst (x : S) (c : R) : StateM μ S := binaryConst .div x c

/-- The sum from the left; the constant zero if there is nothing to add. -/
def sum [Number R] : List S → StateM μ S
  | [] => const 0.0
  | x :: xs => xs.foldlM add x

end Scalar

end PlaneFigure
