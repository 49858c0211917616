import PlaneFigure.Scalar
import PlaneFigure.Variable.Draws
import PlaneFigure.Variable.Request

/-!
A canvas: the memory of the scalars in use, the variables they depend on, and the source of their
initial values. Variables are numbered in the order of their creation.
-/

namespace PlaneFigure

structure Variable (R : Type) where
  name : String
  /-- Where the initial value was drawn from. -/
  range : Range R
  value : R
  deriving DecidableEq, Repr

structure Canvas (R μ : Type) where
  memory : μ
  vars : Array (Variable R) := #[]
  draws : Draws R
  deriving Repr

namespace Canvas

variable {S R μ : Type}

/-- A canvas without variables. -/
def start (memory : μ) (initial : InitialValues R) : Canvas R μ :=
  { memory, draws := Draws.start initial }

/-- Give every later variable of a name the value `x`. -/
def pin (name : String) (x : R) (c : Canvas R μ) : Canvas R μ :=
  { c with draws := c.draws.pin name x }

/-- An operation on scalars is one on the canvas that holds their memory. -/
def onMemory {α : Type} (act : StateM μ α) : StateM (Canvas R μ) α := fun c =>
  let (a, memory) := act c.memory
  (a, { c with memory })

instance : MonadLift (StateM μ) (StateM (Canvas R μ)) := ⟨onMemory⟩

/-- Steps on a canvas that end with the first variable that is refused. What was done before stays
done. -/
abbrev Attempt (R μ : Type) := ExceptT (VariableError R) (StateM (Canvas R μ))

/-- The values of the variables by their numbers. -/
@[inline] def assignment [Number R] (c : Canvas R μ) (i : Nat) : R :=
  match c.vars[i]? with
  | some v => v.value
  | none => 0.0

/-- The current value of a scalar. -/
@[inline] def value [Number R] [Scalar S R μ] (c : Canvas R μ) (x : S) : R :=
  Scalar.read c.memory c.assignment x

/-- Give variable `i` the value `x`. -/
def set (i : Nat) (x : R) (c : Canvas R μ) : Canvas R μ :=
  { c with vars := c.vars.modify i ({ · with value := x }) }

/-- Give every variable of a name the value `x`. -/
def setNamed (name : String) (x : R) (c : Canvas R μ) : Canvas R μ :=
  { c with vars := c.vars.map fun v => if v.name = name then { v with value := x } else v }

/-- Give the variables the values of an array, as far as it reaches. -/
def setAll (xs : Array R) (c : Canvas R μ) : Canvas R μ :=
  { c with vars := c.vars.mapIdx fun i v => { v with value := xs.getD i v.value } }

variable [Number R] [Uniform R] [Scalar S R μ]

/-- A new variable. -/
def create (name : String) (range : Range R) : StateM (Canvas R μ) S := fun c =>
  let (value, draws) := Draws.next name range c.draws
  let (x, memory) := Scalar.free c.vars.size value c.memory
  (x, { memory, vars := c.vars.push { name, range, value }, draws })

/-- A new variable, if the request can be granted; else nothing changes. -/
def request (r : VariableRequest R) : StateM (Canvas R μ) (Except (VariableError R) S) := fun c =>
  match r.validate with
  | .error e => (.error e, c)
  | .ok () =>
    if c.draws.canDraw r.name r.range then
      let (x, c) := create r.name r.range c
      (.ok x, c)
    else (.error (.undrawable r.range), c)

/-- A new variable for a single number. -/
def sample (name : String) (range : Range R) : Attempt R μ S :=
  ExceptT.mk (request { name, range })

end Canvas

end PlaneFigure
