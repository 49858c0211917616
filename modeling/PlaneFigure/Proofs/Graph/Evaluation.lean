import Std.Data.HashMap.Lemmas
import PlaneFigure.Proofs.Graph.Program

/-!
Evaluation with a table of values by node, filled along the walk of a formula. No value is missing
when it is looked up, because children are walked before their parents, and the table ends up with
the values of the nodes; so formulas are evaluated to what the same operations on numbers give.
-/

namespace PlaneFigure

open StraightLine Scalar

variable {R : Type} [Number R]

/-- The value of a node from a table of values; nothing if a child is missing there. -/
def Node.value? (ρ : Nat → R) (table : Nat → Option R) : Node R → Option R
  | .const c => some c
  | .var i => some (ρ i)
  | .unary op x => return op.apply (← table x)
  | .binary op l r => return op.apply (← table l) (← table r)

namespace Graph

/-- Enter the value of one more node. -/
def evaluateNode (g : Graph R) (ρ : Nat → R) (table : Std.HashMap Nat R) (i : Nat) :
    Option (Std.HashMap Nat R) := do
  let node ← g.nodes[i]?
  let x ← node.value? ρ (table[·]?)
  return table.insert i x

/-- The value of a formula. A constant is its own value; another formula is walked, and every node
takes the values of its children from the table. -/
def evaluate? (g : Graph R) (ρ : Nat → R) (f : Formula R) : Option R :=
  match g.const? f with
  | some c => some c
  | none => do
    let table ← (g.order f.root).toList.foldlM (g.evaluateNode ρ) ∅
    table[f.root]?

variable {g : Graph R} {ρ : Nat → R} {l : List Nat} {i : Nat}

theorem value?_eq_some {node : Node R} {table : Nat → Option R} {v : Nat → R}
    (h : ∀ c ∈ node.children, table c = some (v c)) :
    node.value? ρ table = some (node.value ρ v) := by
  cases node with
  | const c => rfl
  | var k => rfl
  | unary op x => simp [Node.value?, Node.value, h x (by simp [Node.children])]
  | binary op l r =>
      simp [Node.value?, Node.value, h l (by simp [Node.children]), h r (by simp [Node.children])]

/-- A node whose children are in the table gets its value. -/
theorem evaluateNode_eq_some (hg : g.WellFormed) (hi : i < g.size) {table : Std.HashMap Nat R}
    (h : ∀ c ∈ g.children i, table[c]? = some (g.valueAt ρ c)) :
    g.evaluateNode ρ table i = some (table.insert i (g.valueAt ρ i)) := by
  have hnode := Array.getElem?_eq_getElem hi
  simp only [children, hnode] at h
  simp [evaluateNode, hnode, value?_eq_some h, hg.valueAt_eq hnode]

/-- Along an order with children first, the table holds the values of all nodes so far. -/
theorem evaluateNodes (hg : g.WellFormed) (hl : ChildrenFirst g l) (hin : ∀ i ∈ l, i < g.size) :
    ∃ table, l.foldlM (g.evaluateNode ρ) ∅ = some table ∧
      ∀ i ∈ l, table[i]? = some (g.valueAt ρ i) := by
  induction hl with
  | nil => exact ⟨∅, rfl, by simp⟩
  | @snoc l i hl hi hc ih =>
      obtain ⟨table, htable, hvalues⟩ := ih fun j hj => hin j (List.mem_append_left _ hj)
      have hnode := evaluateNode_eq_some (ρ := ρ) hg (hin i (by simp)) fun c hci =>
        hvalues c (hc c hci)
      refine ⟨table.insert i (g.valueAt ρ i), ?_, fun j hj => ?_⟩
      · simp [List.foldlM_append, htable, hnode]
      · rw [Std.HashMap.getElem?_insert]
        split
        next hij => rw [eq_of_beq hij]
        next hij =>
          obtain hj | hj := List.mem_append.mp hj
          · exact hvalues j hj
          · exact absurd (beq_iff_eq.mpr (List.mem_singleton.mp hj).symm) hij

/-- No value is missing: a formula is evaluated to its value. -/
theorem evaluate?_eq_some (hg : g.WellFormed) {f : Formula R} (hf : f.root < g.size) :
    g.evaluate? ρ f = some (g.value ρ f) := by
  unfold evaluate?
  split
  next c hc => rw [value_of_const? hc]
  · obtain ⟨table, htable, hvalues⟩ := evaluateNodes (ρ := ρ) hg (order_childrenFirst hg f.root)
      fun i hi => Nat.lt_of_le_of_lt (le_of_mem_order hg hi) hf
    rw [htable]
    exact hvalues f.root (root_mem_order hg f.root)

/-- Recording operations on formulas and evaluating the results is carrying out the operations on
values, however the operands share nodes, with folded constants, and also when the variables get
other values than they were created with. So the registers of a program evaluate to what the program
gives on numbers. -/
theorem evaluate_run {fs : List (Formula R)} (hg : Recorded g fs) (ρ : Nat → R) :
    (∀ f ∈ fs, g.evaluate? ρ f = some (g.value ρ f)) ∧
    (∀ i, (push (.var i) g).2.evaluate? ρ (push (.var i) g).1 = some (ρ i)) ∧
    (∀ s : Step R (Formula R), (∀ f ∈ s.operands, f ∈ fs) → s.rule? = none →
      (s.run g).2.evaluate? ρ (s.run g).1 = some (outcome (s.map (g.value ρ)).run) ∧
      ∀ f ∈ fs, (s.run g).2.evaluate? ρ f = g.evaluate? ρ f) ∧
    ∀ (ρ₀ : Nat → R) (program : List (Line R)) (regs : Array (Formula R)),
      (∀ f ∈ regs, f ∈ fs) → (∀ line ∈ program, line.rule? = none) →
      (runLines ρ₀ program regs g).1.map (·.map ((runLines ρ₀ program regs g).2.evaluate? ρ)) =
        (outcome (runLines ρ program (regs.map (g.value ρ)))).map (·.map some) := by
  obtain ⟨hwf, hinside⟩ := hg.wellFormed
  refine ⟨fun f hf => evaluate?_eq_some hwf (hinside f hf), fun i => ?_, fun s hs hrule => ?_,
    fun ρ₀ program regs hregs hrules => ?_⟩
  · have hgrown : Grown g (push (.var i) g).1 (push (.var i) g).2 :=
      push_grown hwf (by simp [Node.children])
    rw [evaluate?_eq_some hgrown.wellFormed hgrown.root_lt, var_value]
  · have hoperands : ∀ f ∈ s.operands, f.root < g.size := fun f hf => hinside f (hs f hf)
    have hgrown := step_grown hwf hoperands
    have hmap : s.map (g.denote ρ) = s.map (g.value ρ) :=
      Step.map_congr fun f hf => denote_eq_value hwf (hoperands f hf)
    refine ⟨?_, fun f hf => ?_⟩
    · rw [evaluate?_eq_some hgrown.wellFormed hgrown.root_lt,
        ← denote_eq_value hgrown.wellFormed hgrown.root_lt,
        step_denote plain_number hwf hoperands (by simp [hrule]), hmap]
    · have hlt := hinside f hf
      rw [evaluate?_eq_some hwf hlt, evaluate?_eq_some hgrown.wellFormed
        (Nat.lt_of_lt_of_le hlt (size_le_of_le hgrown.le))]
      exact congrArg some (valueAt_of_le hgrown.le hlt)
  · have hmap : regs.map (g.denote ρ) = regs.map (g.value ρ) :=
      Array.map_congr_left fun f hf => denote_eq_value hwf (hinside f (hregs f hf))
    rw [← hmap]
    refine runLines_read plain_number (fun g f => g.evaluate? ρ f) some (fun g f hg hf => ?_)
      ρ₀ program (fun line hline how hhow => ?_) (.of_recorded hg hregs)
    · rw [evaluate?_eq_some hg hf, denote_eq_value hg hf]
    · rw [hrules line hline] at hhow
      cases hhow

/-- The square root of the constant is folded, and the variable is set after the product has been
recorded. -/
theorem evaluate_run_product :
    let program : List (Line Float) :=
      [.var 0, .step (.const 4.0), .step (.unary .sqrt 1), .step (.binary .mul 0 2),
        .step (.square 3)]
    let r := runLines (fun _ => 1.0) program (#[] : Array (Formula Float)) empty
    r.1.map (·.map (r.2.evaluate? fun _ => 3.0)) =
        some #[some 3.0, some 4.0, some 2.0, some 6.0, some 36.0] ∧
      let g : Graph Float := ⟨#[.var 0]⟩
      (binary .mul ⟨0⟩ ⟨0⟩ g).2.evaluate? (fun _ => 3.0) (binary .mul ⟨0⟩ ⟨0⟩ g).1 =
        some 9.0 := by
  intro program r
  refine ⟨((evaluate_run .start fun _ => 3.0).2.2.2 _ program #[] (by simp) ?_).trans ?_, ?_⟩
  · simp [program, Line.rule?, Step.rule?]
  · decide +kernel
  · refine ((evaluate_run (Recorded.start.var 0) fun _ => 3.0).2.2.1 (.square ⟨0⟩)
      (fun _ h => h) rfl).1.trans ?_
    decide +kernel

end Graph

end PlaneFigure
