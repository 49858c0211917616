import PlaneFigure.Graph.Order

/-!
Simplification of formulas by value-preserving rules. Every reachable node is simplified once, after
its children; a node to which no rule applies is recorded anew over its simplified children.
-/

namespace PlaneFigure.Graph

variable {R : Type} [Number R]

/-- Whether a formula is a constant equal to `c`. -/
def isConst (g : Graph R) (f : Formula R) (c : R) : Bool :=
  match g.const? f with
  | some d => Number.eq d c
  | none => false

/-- The formula whose negation `f` is, if `f` is a negation. -/
def negated? (g : Graph R) (f : Formula R) : Option (Formula R) :=
  match g.nodes[f.root]? with
  | some (.unary .neg x) => some ⟨x⟩
  | _ => none

/-- An operation on simplified operands, after the rules for neutral constants: zero added on either
side or subtracted, one as a factor on either side or as divisor. -/
def simplifyBinary (how : RuleSet) (op : BinaryOp) (l r : Formula R) :
    StateM (Graph R) (Formula R) := fun g =>
  match how, op with
  | .all, .add =>
    if g.isConst r 0.0 then (l, g) else if g.isConst l 0.0 then (r, g) else binary .add l r g
  | .all, .sub => if g.isConst r 0.0 then (l, g) else binary .sub l r g
  | .all, .mul =>
    if g.isConst r 1.0 then (l, g) else if g.isConst l 1.0 then (r, g) else binary .mul l r g
  | .all, .div => if g.isConst r 1.0 then (l, g) else binary .div l r g
  | _, _ => binary op l r g

/-- An operation on a simplified operand, after the rules for negations: a negation of one is its
operand, the sine of one is the negated sine, the cosine of one is the cosine. -/
def simplifyUnary (op : UnaryOp) (x : Formula R) : StateM (Graph R) (Formula R) := fun g =>
  match op, g.negated? x with
  | .neg, some y => (y, g)
  | .sin, some y => (do unary .neg (← unary .sin y) : StateM (Graph R) (Formula R)) g
  | .cos, some y => unary .cos y g
  | _, _ => unary op x g

/-- The simplified form of node `i`, when `done` maps its children to theirs. -/
def simplifyNode (how : RuleSet) (done : Array Nat) (i : Nat) :
    StateM (Graph R) (Formula R) := fun g =>
  match g.nodes[i]? with
  | some (.unary op x) => simplifyUnary op ⟨done.getD x x⟩ g
  | some (.binary op l r) => simplifyBinary how op ⟨done.getD l l⟩ ⟨done.getD r r⟩ g
  | _ => (⟨i⟩, g)

/-- Simplify node `i`. -/
def simplifyStep (how : RuleSet) : Array Nat × Graph R → Nat → Array Nat × Graph R
  | (done, g), i =>
    let (f, g) := simplifyNode how done i g
    (done.setIfInBounds i f.root, g)

/-- The simplified form of a formula. -/
def simplify (how : RuleSet) (f : Formula R) : StateM (Graph R) (Formula R) := fun g =>
  let (done, g') := (g.order f.root).foldl (simplifyStep how) (Array.range (f.root + 1), g)
  (⟨done.getD f.root f.root⟩, g')

end PlaneFigure.Graph
