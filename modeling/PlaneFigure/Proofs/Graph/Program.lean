import PlaneFigure.Proofs.Graph.Denotation
import PlaneFigure.Proofs.Graph.Recorded

/-!
Straight-line programs that record formulas, and the same programs on other scalars. What the
registers denote after a step depends on what they denoted before, however they share nodes and
whatever else is recorded; so a program on formulas and the program on what they denote go the same
way.
-/

namespace PlaneFigure

namespace StraightLine

variable {R α β γ : Type}

namespace Step

/-- Replace the operands. -/
def map (φ : α → β) : Step R α → Step R β
  | const c => .const c
  | unary op x => .unary op (φ x)
  | binary op x y => .binary op (φ x) (φ y)
  | binaryConst op x c => .binaryConst op (φ x) c
  | square x => .square (φ x)
  | sum xs => .sum (xs.map φ)
  | simplify how x => .simplify how (φ x)

theorem map_congr {φ ψ : α → β} {s : Step R α} (h : ∀ x ∈ s.operands, φ x = ψ x) :
    s.map φ = s.map ψ := by
  cases s <;> simp_all [map, operands]

theorem map_map (φ : α → β) (ψ : β → γ) (s : Step R α) :
    (s.map φ).map ψ = s.map fun x => ψ (φ x) := by
  cases s <;> simp [map]

theorem operands_map (φ : α → β) (s : Step R α) : (s.map φ).operands = s.operands.map φ := by
  cases s <;> rfl

/-- The rules by which a step simplifies, if it does. -/
def rule? : Step R α → Option RuleSet
  | simplify how _ => some how
  | _ => none

theorem rule?_map (φ : α → β) (s : Step R α) : (s.map φ).rule? = s.rule? := by
  cases s <;> rfl

theorem mapM_option_map (φ : β → γ) (f : α → Option β) (xs : List α) :
    (xs.mapM fun a => (f a).map φ) = (xs.mapM f).map (List.map φ) := by
  induction xs with
  | nil => rfl
  | cons x xs ih =>
      rw [List.mapM_cons, List.mapM_cons, ih]
      cases f x with
      | none => rfl
      | some y => cases xs.mapM f <;> rfl

/-- Operands are found in a list of replaced ones where they are found in the list itself. -/
theorem resolve?_map (φ : β → γ) (f : α → Option β) (s : Step R α) :
    s.resolve? (fun a => (f a).map φ) = (s.resolve? f).map (map φ) := by
  cases s with
  | const c => rfl
  | unary op x => cases h : f x <;> simp [resolve?, h, map]
  | binary op x y => cases h : f x <;> cases h' : f y <;> simp [resolve?, h, h', map]
  | binaryConst op x c => cases h : f x <;> simp [resolve?, h, map]
  | square x => cases h : f x <;> simp [resolve?, h, map]
  | sum xs =>
      simp only [resolve?, mapM_option_map]
      cases xs.mapM f <;> rfl
  | simplify how x => cases h : f x <;> simp [resolve?, h, map]

theorem resolve?_rule {f : α → Option β} {s : Step R α} {s' : Step R β}
    (h : s.resolve? f = some s') : s'.rule? = s.rule? := by
  cases s <;> simp [resolve?, Option.bind_eq_some_iff] at h <;> grind [rule?]

theorem mem_of_mapM {f : α → Option β} {xs : List α} {ys : List β} (h : xs.mapM f = some ys) :
    ∀ y ∈ ys, ∃ x, f x = some y := by
  induction xs generalizing ys with
  | nil => simp_all
  | cons x xs ih =>
      simp only [List.mapM_cons, Option.bind_eq_bind, Option.bind_eq_some_iff, Option.pure_def,
        Option.some_inj] at h
      obtain ⟨y, hy, ys', hys, rfl⟩ := h
      exact List.forall_mem_cons.mpr ⟨⟨x, hy⟩, ih hys⟩

/-- The operands of a resolved step were found. -/
theorem resolve?_operands {f : α → Option β} {s : Step R α} {s' : Step R β}
    (h : s.resolve? f = some s') : ∀ b ∈ s'.operands, ∃ a, f a = some b := by
  cases s with
  | sum xs =>
      obtain ⟨ys, hys, rfl⟩ : ∃ ys, xs.mapM f = some ys ∧ Step.sum ys = s' := by
        simpa [resolve?, Option.bind_eq_some_iff] using h
      exact mem_of_mapM hys
  | _ =>
      simp [resolve?, Option.bind_eq_some_iff] at h
      grind [operands]

end Step

/-- A line of a program: a variable, or a step on the registers at hand. -/
inductive Line (R : Type)
  | var (i : Nat)
  | step (s : Step R Nat)

/-- The rules by which a line simplifies, if it does. -/
def Line.rule? : Line R → Option RuleSet
  | var _ => none
  | step s => s.rule?

section

variable {S μ : Type} [Number R] [Scalar S R μ]

/-- Run a program that may create variables at any line, with the initial values `ρ`. -/
def runLines (ρ : Nat → R) : List (Line R) → Array S → StateM μ (Option (Array S))
  | [], regs => return some regs
  | .var i :: program, regs => do runLines ρ program (regs.push (← Scalar.free i (ρ i)))
  | .step step :: program, regs => do
    match step.resolve? (regs[·]?) with
    | none => return none
    | some step => runLines ρ program (regs.push (← step.run))

end

section

open Scalar (outcome)

variable {S : Type} [Number R] [Scalar S R Unit] {ρ : Nat → R}

theorem foldlM_denote (hS : Scalar.Plain S) (x : Expression R) (xs : List (Expression R)) :
    (outcome (xs.foldlM Scalar.add x)).denote ρ =
      outcome ((xs.map (Expression.denote ρ)).foldlM Scalar.add (x.denote ρ : S)) := by
  induction xs generalizing x with
  | nil => rfl
  | cons y xs ih =>
      refine (ih (.applyBinary .add x y)).trans ?_
      rw [Expression.applyBinary_denote hS]
      rfl

/-- A step on expressions denotes the step on what they denote. -/
theorem Step.run_denote (hS : Scalar.Plain S) {s : Step R (Expression R)}
    (hrule : ∀ how, s.rule? = some how → Scalar.Obeys S how) :
    (outcome s.run).denote ρ = outcome ((s.map (Expression.denote ρ)).run : StateM Unit S) := by
  cases s with
  | const c => rfl
  | unary op x => exact Expression.applyUnary_denote hS op x
  | binary op x y => exact Expression.applyBinary_denote hS op x y
  | binaryConst op x c => exact Expression.applyBinary_denote hS op x (.const c)
  | square x => exact Expression.applyBinary_denote hS .mul x x
  | sum xs =>
      cases xs with
      | nil => rfl
      | cons x xs => exact foldlM_denote hS x xs
  | simplify how x =>
      refine (Expression.simplify_denote hS (hrule how rfl) x).trans ?_
      exact (hS.simplify_self how _).symm

end

end StraightLine

namespace Graph

open StraightLine Scalar

variable {R S : Type} [Number R] [Scalar S R Unit] {ρ : Nat → R} {g h : Graph R}

/-! ### What a step records -/

theorem foldlM_unfold (hg : g.WellFormed) {x : Formula R} {xs : List (Formula R)}
    (hx : x.root < g.size) (hxs : ∀ y ∈ xs, y.root < g.size) :
    ((xs.foldlM Scalar.add x : StateM (Graph R) (Formula R)) g).2.unfold
        ((xs.foldlM Scalar.add x : StateM (Graph R) (Formula R)) g).1.root =
      outcome ((xs.map fun y => g.unfold y.root).foldlM Scalar.add (g.unfold x.root)) := by
  induction xs generalizing g x with
  | nil => rfl
  | cons y xs ih =>
      obtain ⟨hy, hxs⟩ := List.forall_mem_cons.mp hxs
      have hadd : Grown g (binary .add x y g).1 (binary .add x y g).2 := binary_grown hg hx hy
      have hsame : xs.map (fun z => (binary .add x y g).2.unfold z.root) =
          xs.map fun z => g.unfold z.root :=
        List.map_congr_left fun z hz => unfold_of_le hadd.le (hxs z hz)
      refine (ih hadd.wellFormed hadd.root_lt fun z hz =>
        Nat.lt_of_lt_of_le (hxs z hz) (size_le_of_le hadd.le)).trans ?_
      rw [hsame, binary_unfold hg .add hx hy]
      rfl

/-- What a step records unfolds to the same step on what its operands unfold to. -/
theorem step_unfold (hg : g.WellFormed) {s : Step R (Formula R)}
    (hs : ∀ f ∈ s.operands, f.root < g.size) :
    (s.run g).2.unfold (s.run g).1.root = outcome (s.map fun f => g.unfold f.root).run := by
  cases s with
  | const c => exact unfold_push hg (.const c) (by simp [Node.children])
  | unary op x => exact unary_unfold hg op (hs x (.head _))
  | binary op x y => exact binary_unfold hg op (hs x (.head _)) (hs y (.tail _ (.head _)))
  | binaryConst op x c =>
      have hc : Grown g (push (.const c) g).1 (push (.const c) g).2 :=
        push_grown hg (by simp [Node.children])
      have hx := hs x (.head _)
      refine (binary_unfold hc.wellFormed op
        (Nat.lt_of_lt_of_le hx (size_le_of_le hc.le)) hc.root_lt).trans ?_
      rw [unfold_of_le hc.le hx, unfold_push hg (.const c) (by simp [Node.children])]
      rfl
  | square x => exact binary_unfold hg .mul (hs x (.head _)) (hs x (.head _))
  | sum xs =>
      cases xs with
      | nil => exact unfold_push hg (.const 0.0) (by simp [Node.children])
      | cons x xs => exact foldlM_unfold hg (hs x (.head _)) fun y hy => hs y (.tail _ hy)
  | simplify how x => exact simplify_unfold hg (hs x (.head _))

/-! ### What formulas denote -/

/-- The scalar that a formula denotes. -/
def denote (g : Graph R) (ρ : Nat → R) (f : Formula R) : S := (g.unfold f.root).denote ρ

theorem denote_of_le (hgh : g ≤ h) {f : Formula R} (hf : f.root < g.size) :
    h.denote ρ f = (g.denote ρ f : S) :=
  congrArg (Expression.denote ρ) (unfold_of_le hgh hf)

/-- Among numbers, a formula denotes its value. -/
theorem denote_eq_value (hg : g.WellFormed) {f : Formula R} (hf : f.root < g.size) :
    g.denote ρ f = g.value ρ f :=
  (Expression.denote_eq_value ..).trans (hg.valueAt_eq_unfold f.root hf).symm

theorem var_denote (hg : g.WellFormed) (i : Nat) :
    (push (.var i) g).2.denote ρ (push (.var i) g).1 = (outcome (Scalar.free i (ρ i)) : S) := by
  rw [denote, unfold_push hg (.var i) (by simp [Node.children])]
  rfl

/-- A step on formulas denotes the step on what they denote. -/
theorem step_denote (hS : Plain S) (hg : g.WellFormed) {s : Step R (Formula R)}
    (hs : ∀ f ∈ s.operands, f.root < g.size) (hrule : ∀ how, s.rule? = some how → Obeys S how) :
    (s.run g).2.denote ρ (s.run g).1 = outcome ((s.map (g.denote ρ)).run : StateM Unit S) := by
  rw [denote, step_unfold hg hs, Step.run_denote hS fun how hhow =>
    hrule how ((Step.rule?_map _ s).symm.trans hhow), Step.map_map]
  rfl

/-- Registers that hold formulas of a graph. -/
structure Registers (g : Graph R) (regs : Array (Formula R)) : Prop where
  wellFormed : g.WellFormed
  root_lt : ∀ f ∈ regs, f.root < g.size

omit [Number R] in
/-- The operands of a step on registers are inside the graph. -/
theorem Registers.operands_lt {regs : Array (Formula R)} (h : Registers g regs)
    {s : Step R Nat} {s' : Step R (Formula R)} (hs : s.resolve? (regs[·]?) = some s') :
    ∀ f ∈ s'.operands, f.root < g.size := by
  intro f hf
  obtain ⟨i, hi⟩ := Step.resolve?_operands hs f hf
  exact h.root_lt f (Array.mem_of_getElem? hi)

omit [Number R] in
theorem Registers.push {regs : Array (Formula R)} {f : Formula R} (h : Registers g regs)
    {g' : Graph R} (hf : Grown g f g') : Registers g' (regs.push f) := by
  refine ⟨hf.wellFormed, fun x hx => ?_⟩
  obtain hx | rfl := Array.mem_push.mp hx
  · exact Nat.lt_of_lt_of_le (h.root_lt x hx) (size_le_of_le hf.le)
  · exact hf.root_lt

theorem Registers.map_denote_push {regs : Array (Formula R)} {f : Formula R}
    (h : Registers g regs) {g' : Graph R} (hf : Grown g f g') :
    (regs.push f).map (g'.denote ρ) = (regs.map (g.denote ρ)).push (g'.denote ρ f : S) := by
  have hsame : regs.map (g'.denote ρ) = regs.map (g.denote ρ : _ → S) :=
    Array.map_congr_left fun x hx => denote_of_le hf.le (h.root_lt x hx)
  rw [Array.map_push, hsame]

theorem Registers.of_recorded {fs : List (Formula R)} (hg : Recorded g fs)
    {regs : Array (Formula R)} (hregs : ∀ f ∈ regs, f ∈ fs) : Registers g regs :=
  ⟨hg.wellFormed.1, fun f hf => hg.wellFormed.2 f (hregs f hf)⟩

/-- The registers that a program ends with hold formulas of a greater graph. -/
theorem runLines_registers (ρ₀ : Nat → R) (program : List (Line R)) {regs : Array (Formula R)}
    (h : Registers g regs) :
    g ≤ (runLines ρ₀ program regs g).2 ∧ ∀ regs', (runLines ρ₀ program regs g).1 = some regs' →
      Registers (runLines ρ₀ program regs g).2 regs' := by
  induction program generalizing g regs with
  | nil => exact ⟨le_refl g, fun _ hregs => Option.some_inj.mp hregs ▸ h⟩
  | cons line program ih =>
      cases line with
      | var i =>
          have hgrown : Grown g (Graph.push (.var i) g).1 (Graph.push (.var i) g).2 :=
            push_grown h.wellFormed (by simp [Node.children])
          obtain ⟨hle, hregs⟩ := ih (h.push hgrown)
          exact ⟨hgrown.le.trans hle, hregs⟩
      | step s =>
          rw [runLines]
          cases hs : s.resolve? (regs[·]?) with
          | none => exact ⟨le_refl g, fun _ hsome => (Option.some_ne_none _ hsome.symm).elim⟩
          | some s' =>
              have hgrown : Grown g (s'.run g).1 (s'.run g).2 :=
                step_grown h.wellFormed (h.operands_lt hs)
              obtain ⟨hle, hregs⟩ := ih (h.push hgrown)
              exact ⟨hgrown.le.trans hle, hregs⟩

/-- What the registers denote after a program is what the program comes to on what they denoted
before. -/
theorem runLines_denote (hS : Plain S) (ρ₀ : Nat → R) (program : List (Line R))
    (hrules : ∀ line ∈ program, ∀ how, line.rule? = some how → Obeys S how)
    {regs : Array (Formula R)} (h : Registers g regs) :
    (runLines ρ₀ program regs g).1.map (·.map ((runLines ρ₀ program regs g).2.denote ρ)) =
      outcome (runLines ρ program (regs.map (g.denote ρ : _ → S))) := by
  induction program generalizing g regs with
  | nil => rfl
  | cons line program ih =>
      obtain ⟨hrule, hrest⟩ := List.forall_mem_cons.mp hrules
      cases line with
      | var i =>
          have hgrown : Grown g (Graph.push (.var i) g).1 (Graph.push (.var i) g).2 :=
            push_grown h.wellFormed (by simp [Node.children])
          refine (ih hrest (h.push hgrown)).trans ?_
          rw [h.map_denote_push hgrown, var_denote h.wellFormed]
          rfl
      | step s =>
          have hresolve : s.resolve? ((regs.map (g.denote ρ : _ → S))[·]?) =
              (s.resolve? (regs[·]?)).map (Step.map (g.denote ρ)) := by
            rw [← Step.resolve?_map]
            exact congrArg s.resolve? (funext fun i => Array.getElem?_map ..)
          rw [runLines, runLines, hresolve]
          cases hs : s.resolve? (regs[·]?) with
          | none => rfl
          | some s' =>
              have hinside := h.operands_lt hs
              have hgrown : Grown g (s'.run g).1 (s'.run g).2 := step_grown h.wellFormed hinside
              refine (ih hrest (h.push hgrown)).trans ?_
              rw [h.map_denote_push hgrown, step_denote hS h.wellFormed hinside
                fun how hhow => hrule how ((Step.resolve?_rule hs).symm.trans hhow)]
              rfl

/-- What is read off the registers after a program is what is read off the result of the program on
what they denoted before. -/
theorem runLines_read (hS : Plain S) {α : Type} (read : Graph R → Formula R → α) (φ : S → α)
    (hread : ∀ (g : Graph R) (f : Formula R), g.WellFormed → f.root < g.size →
      read g f = φ (g.denote ρ f))
    (ρ₀ : Nat → R) (program : List (Line R))
    (hrules : ∀ line ∈ program, ∀ how, line.rule? = some how → Obeys S how)
    {regs : Array (Formula R)} (h : Registers g regs) :
    (runLines ρ₀ program regs g).1.map (·.map (read (runLines ρ₀ program regs g).2)) =
      (outcome (runLines ρ program (regs.map (g.denote ρ)))).map (·.map φ) := by
  rw [← runLines_denote hS ρ₀ program hrules h]
  obtain ⟨-, hregs⟩ := runLines_registers ρ₀ program h
  cases hrun : (runLines ρ₀ program regs g).1 with
  | none => rfl
  | some regs' =>
      obtain ⟨hg, hlt⟩ := hregs regs' hrun
      have hsame : regs'.map (read (runLines ρ₀ program regs g).2) =
          regs'.map fun f => φ ((runLines ρ₀ program regs g).2.denote ρ f) :=
        Array.map_congr_left fun f hf => hread _ f hg (hlt f hf)
      simp [hsame, Function.comp_def]

end Graph

end PlaneFigure
