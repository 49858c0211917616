import PlaneFigure.Scalar

/-!
Straight-line programs. Each step applies one operation to registers and appends its result as the
next register.
-/

namespace PlaneFigure.StraightLine

/-- A step over the numbers `R`, with operands `α`. -/
inductive Step (R α : Type)
  | const (c : R)
  | unary (op : UnaryOp) (x : α)
  | binary (op : BinaryOp) (x y : α)
  | binaryConst (op : BinaryOp) (x : α) (c : R)
  | square (x : α)
  | sum (xs : List α)
  | simplify (how : RuleSet) (x : α)
  deriving DecidableEq, Repr

namespace Step

variable {R α β : Type}

/-- Replace the operands, if all of them have a replacement. -/
def resolve? (f : α → Option β) : Step R α → Option (Step R β)
  | const c => some (.const c)
  | unary op x => return .unary op (← f x)
  | binary op x y => return .binary op (← f x) (← f y)
  | binaryConst op x c => return .binaryConst op (← f x) c
  | square x => return .square (← f x)
  | sum xs => return .sum (← xs.mapM f)
  | simplify how x => return .simplify how (← f x)

variable {S μ : Type} [Number R] [Scalar S R μ]

/-- The result of a step on scalars. -/
def run : Step R S → StateM μ S
  | const c => Scalar.const c
  | unary op x => Scalar.unary op x
  | binary op x y => Scalar.binary op x y
  | binaryConst op x c => Scalar.binaryConst op x c
  | square x => Scalar.sq x
  | sum xs => Scalar.sum xs
  | simplify how x => Scalar.simplify how x

end Step

end PlaneFigure.StraightLine
