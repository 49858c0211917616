import PlaneFigure.Graph.Recording
import PlaneFigure.Proofs.Graph.Simplify
import PlaneFigure.StraightLine

/-!
The formulas that can be recorded at all: constants, variables, and operations on formulas recorded
before, in any number and with any sharing.
-/

namespace PlaneFigure

variable {R α : Type}

/-- The operands of a step. -/
def StraightLine.Step.operands : StraightLine.Step R α → List α
  | const _ => []
  | unary _ x => [x]
  | binary _ x y => [x, y]
  | binaryConst _ x _ => [x]
  | square x => [x]
  | sum xs => xs
  | simplify _ x => [x]

namespace Graph

variable [Number R] {g : Graph R} {fs : List (Formula R)} {f : Formula R}

/-- A graph, and the formulas that were recorded in it. -/
inductive Recorded : Graph R → List (Formula R) → Prop
  | start : Recorded empty []
  | var {g : Graph R} {fs : List (Formula R)} (h : Recorded g fs) (i : Nat) :
      Recorded (push (.var i) g).2 ((push (.var i) g).1 :: fs)
  | step {g : Graph R} {fs : List (Formula R)} (h : Recorded g fs)
      (s : StraightLine.Step R (Formula R)) (hs : ∀ f ∈ s.operands, f ∈ fs) :
      Recorded (s.run g).2 ((s.run g).1 :: fs)

/-- A step on the formula that was recorded last. -/
theorem Recorded.onLast {x : Formula R} (h : Recorded g (x :: fs))
    (s : StraightLine.Step R (Formula R)) (hs : s.operands = [x]) :
    Recorded (s.run g).2 ((s.run g).1 :: x :: fs) :=
  h.step s fun y hy => by
    rw [hs] at hy
    exact List.mem_cons.mpr (.inl (List.mem_singleton.mp hy))

theorem foldlM_grown {x : Formula R} {xs : List (Formula R)} (hg : g.WellFormed)
    (hx : x.root < g.size) (hxs : ∀ y ∈ xs, y.root < g.size) :
    Grown g ((xs.foldlM Scalar.add x : StateM (Graph R) (Formula R)) g).1
      ((xs.foldlM Scalar.add x : StateM (Graph R) (Formula R)) g).2 := by
  induction xs generalizing g x with
  | nil => exact .refl hg hx
  | cons y xs ih =>
      have hadd : Grown g (binary .add x y g).1 (binary .add x y g).2 :=
        binary_grown hg hx (hxs y (.head _))
      have hle := size_le_of_le hadd.le
      exact (ih hadd.wellFormed hadd.root_lt fun z hz =>
        Nat.lt_of_lt_of_le (hxs z (.tail _ hz)) hle).of_le hadd.le

theorem step_grown {s : StraightLine.Step R (Formula R)} (hg : g.WellFormed)
    (hs : ∀ f ∈ s.operands, f.root < g.size) : Grown g (s.run g).1 (s.run g).2 := by
  cases s with
  | const c => exact push_grown hg (by simp [Node.children])
  | unary op x => exact unary_grown hg (hs x (.head _))
  | binary op x y => exact binary_grown hg (hs x (.head _)) (hs y (.tail _ (.head _)))
  | binaryConst op x c =>
      have hc : Grown g (push (.const c) g).1 (push (.const c) g).2 :=
        push_grown hg (by simp [Node.children])
      have hx := Nat.lt_of_lt_of_le (hs x (.head _)) (size_le_of_le hc.le)
      exact (binary_grown hc.wellFormed hx hc.root_lt).of_le hc.le
  | square x => exact binary_grown hg (hs x (.head _)) (hs x (.head _))
  | sum xs =>
      cases xs with
      | nil => exact push_grown hg (by simp [Node.children])
      | cons x xs => exact foldlM_grown hg (hs x (.head _)) fun y hy => hs y (.tail _ hy)
  | simplify how x => exact simplify_grown how hg (hs x (.head _))

omit [Number R] in
theorem Grown.forall_root_lt {h : Graph R} (hf : Grown g f h) (hfs : ∀ x ∈ fs, x.root < g.size) :
    ∀ x ∈ f :: fs, x.root < h.size :=
  List.forall_mem_cons.mpr
    ⟨hf.root_lt, fun x hx => Nat.lt_of_lt_of_le (hfs x hx) (size_le_of_le hf.le)⟩

/-- In a recorded graph, children come before parents, and the formulas are inside. -/
theorem Recorded.wellFormed (h : Recorded g fs) : g.WellFormed ∧ ∀ f ∈ fs, f.root < g.size := by
  induction h with
  | start => exact ⟨empty_wellFormed, by simp⟩
  | var _ i ih =>
      obtain ⟨hg, hfs⟩ := ih
      have hgrown : Grown _ (push (.var i) _).1 (push (.var i) _).2 :=
        push_grown hg (by simp [Node.children])
      exact ⟨hgrown.wellFormed, hgrown.forall_root_lt hfs⟩
  | step _ s hs ih =>
      obtain ⟨hg, hfs⟩ := ih
      have hgrown := step_grown hg fun f hf => hfs f (hs f hf)
      exact ⟨hgrown.wellFormed, hgrown.forall_root_lt hfs⟩

end Graph

end PlaneFigure
