import PlaneFigure.Proofs.Graph.Folding

/-!
What expressions denote among scalars that need no memory, be it numbers or numbers with their
derivatives. An expression is folded and simplified by rules; where the scalars obey the laws that
these rules rely on, neither changes what it denotes.
-/

namespace PlaneFigure

namespace Scalar

/-- The scalar that an operation comes to where there is no memory. -/
abbrev outcome {S : Type} (m : StateM Unit S) : S := (m ()).1

variable {R : Type} (S : Type) [Number R] [Scalar S R Unit]

/-- Operations on constants are carried out, and there is nothing to simplify. -/
structure Plain : Prop where
  unary_const (op : UnaryOp) (c : R) :
    outcome (unary op (outcome (const c) : S)) = outcome (const (op.apply c))
  binary_const (op : BinaryOp) (c d : R) :
    outcome (binary op (outcome (const c) : S) (outcome (const d))) =
      outcome (const (op.apply c d))
  simplify_self (how : RuleSet) (x : S) : outcome (simplify how x) = x

/-- Negation is an involution, the sine is odd, and the cosine is even. -/
structure Symmetric : Prop where
  neg_neg (x : S) : outcome (neg (outcome (neg x))) = x
  sin_neg (x : S) : outcome (sin (outcome (neg x))) = outcome (neg (outcome (sin x)))
  cos_neg (x : S) : outcome (cos (outcome (neg x))) = outcome (cos x)

/-- Constants that equal zero or one are neutral. -/
structure Neutral : Prop where
  add_zero (x : S) (c : R) : Number.eq c 0.0 → outcome (add x (outcome (const c))) = x
  zero_add (x : S) (c : R) : Number.eq c 0.0 → outcome (add (outcome (const c)) x) = x
  sub_zero (x : S) (c : R) : Number.eq c 0.0 → outcome (sub x (outcome (const c))) = x
  mul_one (x : S) (c : R) : Number.eq c 1.0 → outcome (mul x (outcome (const c))) = x
  one_mul (x : S) (c : R) : Number.eq c 1.0 → outcome (mul (outcome (const c)) x) = x
  div_one (x : S) (c : R) : Number.eq c 1.0 → outcome (div x (outcome (const c))) = x

/-- The laws that a set of rules relies on. -/
def Obeys : RuleSet → Prop
  | .trig => Symmetric S
  | .all => Symmetric S ∧ Neutral S

variable {S} in
theorem Obeys.symmetric {how : RuleSet} (h : Obeys S how) : Symmetric S := by
  cases how with
  | trig => exact h
  | all => exact h.1

theorem plain_number : Plain R :=
  ⟨fun _ _ => rfl, fun _ _ _ => rfl, fun _ _ => rfl⟩

theorem obeys_number {how : RuleSet} (h : how.Lawful R) : Obeys R how := by
  have hsymmetric : Symmetric R := ⟨h.trig.neg_neg, h.trig.sin_neg, h.trig.cos_neg⟩
  cases how with
  | trig => exact hsymmetric
  | all =>
      obtain ⟨-, hneutral⟩ := h
      exact ⟨hsymmetric, ⟨hneutral.add_zero, hneutral.zero_add, hneutral.sub_zero,
        hneutral.mul_one, hneutral.one_mul, hneutral.div_one⟩⟩

end Scalar

namespace Expression

open Scalar (outcome)

variable {R S : Type} {e x l r : Expression R}

theorem const?_eq_some {c : R} (h : e.const? = some c) : e = const c := by
  cases e with
  | const d => exact congrArg const (Option.some_inj.mp h)
  | _ => cases h

theorem negated?_eq_some (h : e.negated? = some x) : e = unary .neg x := by
  cases e with
  | unary op y =>
      cases op with
      | neg => exact congrArg (unary .neg) (Option.some_inj.mp h)
      | _ => cases h
  | _ => cases h

variable [Number R]

theorem isConst_eq_true {c : R} (h : e.isConst c) : ∃ d, e = const d ∧ Number.eq d c := by
  unfold isConst at h
  split at h
  · exact ⟨_, const?_eq_some ‹_›, h⟩
  · cases h

variable [Scalar S R Unit] {ρ : Nat → R}

/-- The scalar that an expression denotes, where variable `i` has the value `ρ i`. -/
def denote (ρ : Nat → R) : Expression R → S
  | const c => outcome (Scalar.const c)
  | var i => outcome (Scalar.free i (ρ i))
  | unary op x => outcome (Scalar.unary op (x.denote ρ))
  | binary op l r => outcome (Scalar.binary op (l.denote ρ) (r.denote ρ))

theorem denote_eq_value (ρ : Nat → R) (e : Expression R) : e.denote ρ = e.value ρ := by
  induction e with
  | const c => rfl
  | var i => rfl
  | unary op x ih => exact congrArg op.apply ih
  | binary op l r ihl ihr => exact congrArg₂ op.apply ihl ihr

theorem applyUnary_denote (hS : Scalar.Plain S) (op : UnaryOp) (x : Expression R) :
    (x.applyUnary op).denote ρ = outcome (Scalar.unary op (x.denote ρ : S)) := by
  unfold applyUnary
  split
  next c hc =>
    rw [const?_eq_some hc]
    exact (hS.unary_const op c).symm
  · rfl

theorem applyBinary_denote (hS : Scalar.Plain S) (op : BinaryOp) (l r : Expression R) :
    (applyBinary op l r).denote ρ =
      outcome (Scalar.binary op (l.denote ρ : S) (r.denote ρ)) := by
  unfold applyBinary
  split
  next a b ha hb =>
    rw [const?_eq_some ha, const?_eq_some hb]
    exact (hS.binary_const op a b).symm
  · rfl

theorem simplifyUnary_denote (hS : Scalar.Plain S) (hlaws : Scalar.Symmetric S) (op : UnaryOp)
    (x : Expression R) :
    (x.simplifyUnary op).denote ρ = outcome (Scalar.unary op (x.denote ρ : S)) := by
  unfold simplifyUnary
  split
  next y hneg =>
    rw [negated?_eq_some hneg]
    exact (hlaws.neg_neg _).symm
  next y hneg =>
    rw [negated?_eq_some hneg, applyUnary_denote hS, applyUnary_denote hS]
    exact (hlaws.sin_neg _).symm
  next y hneg =>
    rw [negated?_eq_some hneg, applyUnary_denote hS]
    exact (hlaws.cos_neg _).symm
  · exact applyUnary_denote hS _ x

theorem simplifyBinary_denote (hS : Scalar.Plain S) {how : RuleSet} (hlaws : Scalar.Obeys S how)
    (op : BinaryOp) (l r : Expression R) :
    (simplifyBinary how op l r).denote ρ =
      outcome (Scalar.binary op (l.denote ρ : S) (r.denote ρ)) := by
  have happly := fun op => applyBinary_denote (ρ := ρ) hS op l r
  cases how with
  | trig => exact happly op
  | all =>
      obtain ⟨-, hneutral⟩ := hlaws
      unfold simplifyBinary
      cases op with
      | add =>
          dsimp only
          split
          next hr =>
            obtain ⟨c, rfl, hc⟩ := isConst_eq_true hr
            exact (hneutral.add_zero _ c hc).symm
          split
          next hl =>
            obtain ⟨c, rfl, hc⟩ := isConst_eq_true hl
            exact (hneutral.zero_add _ c hc).symm
          · exact happly .add
      | sub =>
          dsimp only
          split
          next hr =>
            obtain ⟨c, rfl, hc⟩ := isConst_eq_true hr
            exact (hneutral.sub_zero _ c hc).symm
          · exact happly .sub
      | mul =>
          dsimp only
          split
          next hr =>
            obtain ⟨c, rfl, hc⟩ := isConst_eq_true hr
            exact (hneutral.mul_one _ c hc).symm
          split
          next hl =>
            obtain ⟨c, rfl, hc⟩ := isConst_eq_true hl
            exact (hneutral.one_mul _ c hc).symm
          · exact happly .mul
      | div =>
          dsimp only
          split
          next hr =>
            obtain ⟨c, rfl, hc⟩ := isConst_eq_true hr
            exact (hneutral.div_one _ c hc).symm
          · exact happly .div
      | max => exact happly .max

/-- Simplification by rules that the scalars obey changes nothing that is denoted. -/
theorem simplify_denote (hS : Scalar.Plain S) {how : RuleSet} (hlaws : Scalar.Obeys S how)
    (e : Expression R) : (e.simplify how).denote ρ = (e.denote ρ : S) := by
  induction e with
  | const c => rfl
  | var i => rfl
  | unary op x ih => rw [simplify, simplifyUnary_denote hS hlaws.symmetric, ih, denote]
  | binary op l r ihl ihr => rw [simplify, simplifyBinary_denote hS hlaws, ihl, ihr, denote]

end Expression

end PlaneFigure
