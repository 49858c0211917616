import PlaneFigure.Proofs.Graph.Tangent
import PlaneFigure.Proofs.Number.Canonical

/-!
Simplified formulas in place of the formulas they come from. Nothing that is read off them differs,
nor off anything that is recorded with them as operands: in exact arithmetic neither values nor
gradients, and on doubles no bit of a value as far as negations, sines and cosines are simplified.
-/

namespace PlaneFigure

/-- Doubles, with any two functions as the sine and the cosine. -/
@[reducible] def Double.withTrig (sin cos : Float → Float) : Number Float :=
  { (inferInstance : Number Float) with sin, cos }

example : Double.withTrig Float.sin Float.cos = (inferInstance : Number Float) := rfl

theorem Double.withTrig_symmetric {sin cos : Float → Float} (hsin : ∀ x, sin (-x) = -sin x)
    (hcos : ∀ x, cos (-x) = cos x) : @TrigSymmetry Float (Double.withTrig sin cos) :=
  @TrigSymmetry.mk Float (Double.withTrig sin cos) Double.neg_neg hsin hcos

namespace Graph

open StraightLine Scalar

variable {R : Type} [Number R] {g : Graph R} {fs : List (Formula R)} {f : Formula R}

/-- The formula `s`, recorded on top of `g`, can take the place of `f`: the same is read off both,
and the same off every register of a program that finds `s` in place of `f` at some places among
recorded formulas. -/
def Interchangeable {α : Type} (g : Graph R) (fs : List (Formula R)) (f : Formula R)
    (rules : RuleSet → Prop) (read : Graph R → Formula R → α) (s : Formula R × Graph R) : Prop :=
  read s.2 s.1 = read g f ∧
  ∀ (ρ₀ : Nat → R) (program : List (Line R)) (regs regs' : Array (Formula R)),
    (∀ x ∈ regs, x ∈ fs) →
    (∀ i : Nat, regs'[i]? = regs[i]? ∨ regs[i]? = some f ∧ regs'[i]? = some s.1) →
    (∀ line ∈ program, ∀ how, line.rule? = some how → rules how) →
    (runLines ρ₀ program regs' s.2).1.map (·.map (read (runLines ρ₀ program regs' s.2).2)) =
      (runLines ρ₀ program regs g).1.map (·.map (read (runLines ρ₀ program regs g).2))

/-- What is read off a formula depends on what it denotes, and simplification keeps this. -/
theorem interchangeable_of_read {S α : Type} [Scalar S R Unit] (hS : Plain S) {how : RuleSet}
    (hhow : Obeys S how) {rules : RuleSet → Prop} (hrules : ∀ how, rules how → Obeys S how)
    (ρ : Nat → R) (read : Graph R → Formula R → α) (φ : S → α)
    (hread : ∀ (g : Graph R) (f : Formula R), g.WellFormed → f.root < g.size →
      read g f = φ (g.denote ρ f)) (hg : Recorded g fs) (hf : f ∈ fs) :
    Interchangeable g fs f rules read (simplify how f g) := by
  obtain ⟨hwf, hinside⟩ := hg.wellFormed
  have hgrown := simplify_grown how hwf (hinside f hf)
  have hdenote : (simplify how f g).2.denote ρ (simplify how f g).1 = (g.denote ρ f : S) :=
    (congrArg (Expression.denote ρ) (simplify_unfold hwf (hinside f hf))).trans
      (Expression.simplify_denote hS hhow _)
  refine ⟨?_, fun ρ₀ program regs regs' hregs hreplaced hprogram => ?_⟩
  · rw [hread _ _ hgrown.wellFormed hgrown.root_lt, hread _ _ hwf (hinside f hf), hdenote]
  -- every register is inside, and denotes what the one in its place did
  have hlt : ∀ x ∈ regs, x.root < g.size := fun x hx => hinside x (hregs x hx)
  have hregs' : Registers (simplify how f g).2 regs' := by
    refine ⟨hgrown.wellFormed, fun x hx => ?_⟩
    obtain ⟨i, hi⟩ := Array.mem_iff_getElem?.mp hx
    obtain hsame | ⟨-, hnew⟩ := hreplaced i
    · have hmem : x ∈ regs := Array.mem_of_getElem? (hsame.symm.trans hi)
      exact Nat.lt_of_lt_of_le (hlt x hmem) (size_le_of_le hgrown.le)
    · obtain rfl := Option.some_inj.mp (hnew.symm.trans hi)
      exact hgrown.root_lt
  have hsame : regs'.map ((simplify how f g).2.denote ρ : _ → S) = regs.map (g.denote ρ) := by
    refine Array.ext_getElem? fun i => ?_
    rw [Array.getElem?_map, Array.getElem?_map]
    obtain hi | ⟨hi, hi'⟩ := hreplaced i
    · rw [hi]
      cases hx : regs[i]? with
      | none => rfl
      | some x => exact congrArg some (denote_of_le hgrown.le (hlt x (Array.mem_of_getElem? hx)))
    · rw [hi, hi', Option.map_some, Option.map_some, hdenote]
  have hobeys := fun line hline how' h => hrules how' (hprogram line hline how' h)
  rw [runLines_read hS read φ hread ρ₀ program hobeys hregs', hsame,
    ← runLines_read hS read φ hread ρ₀ program hobeys ⟨hwf, hlt⟩]

/-- Simplification preserves meaning: where the numbers obey the laws that the rules rely on, every
value is kept; in exact arithmetic, every gradient as well; and on doubles, if the sine is odd and
the cosine even, the rules for them and for negations keep every bit of a value. The same holds of
everything that is recorded on top of the simplified formula. -/
theorem simplify_interchangeable :
    (∀ {R : Type} [Number R] (how : RuleSet), how.Lawful R →
      ∀ {g : Graph R} {fs : List (Formula R)} {f : Formula R}, Recorded g fs → f ∈ fs →
      ∀ ρ : Nat → R, Interchangeable g fs f (fun how => how.Lawful R) (fun g f => g.value ρ f)
        (simplify how f g)) ∧
    (∀ (how : RuleSet) {g : Graph ℝ} {fs : List (Formula ℝ)} {f : Formula ℝ},
      Recorded g fs → f ∈ fs →
      ∀ (ρ : Nat → ℝ) (n : Nat), Interchangeable g fs f (fun _ => True)
        (fun g f => g.gradient ρ f n) (simplify how f g)) ∧
    ∀ sin cos : Float → Float, (∀ x, sin (-x) = -sin x) → (∀ x, cos (-x) = cos x) →
      letI := Double.withTrig sin cos
      ∀ {g : Graph Float} {fs : List (Formula Float)} {f : Formula Float},
        Recorded g fs → f ∈ fs →
        ∀ ρ : Nat → Float, Interchangeable g fs f (fun how => how = .trig)
          (fun g f => g.value ρ f) (simplify .trig f g) := by
  refine ⟨fun how hhow g fs f hg hf ρ => ?_, fun how g fs f hg hf ρ n => ?_,
    fun sin cos hsin hcos => ?_⟩
  · exact interchangeable_of_read plain_number (obeys_number hhow)
      (fun how hhow => obeys_number hhow) ρ (fun g f => g.value ρ f) id
      (fun g f hg hf => (denote_eq_value hg hf).symm) hg hf
  · exact interchangeable_of_read Tangent.plain (Tangent.obeys how)
      (fun how _ => Tangent.obeys how) ρ (fun g f => g.gradient ρ f n)
      (fun x => (x.value, Array.ofFn fun i : Fin n => x.slope i))
      (fun g f hg hf => gradient_eq_denote hg hf ρ n) hg hf
  · let := Double.withTrig sin cos
    intro g fs f hg hf ρ
    have htrig : RuleSet.trig.Lawful Float := Double.withTrig_symmetric hsin hcos
    have hrules : ∀ how : RuleSet, how = .trig → Obeys Float how := by
      rintro how rfl
      exact obeys_number htrig
    exact interchangeable_of_read plain_number (obeys_number htrig) hrules ρ
      (fun g f => g.value ρ f) id
      (fun g f hg hf => (denote_eq_value hg hf).symm) hg hf

/-- The sine of a negated variable. -/
def negatedSine (R : Type) : Graph R := ⟨#[.var 0, .unary .neg 0, .unary .sin 1]⟩

theorem negatedSine_recorded : Recorded (negatedSine R) [⟨2⟩, ⟨1⟩, ⟨0⟩] :=
  ((Recorded.start.var 0).onLast (.unary .neg ⟨0⟩) rfl).onLast (.unary .sin ⟨1⟩) rfl

/-- The sine of a negated variable becomes a negated sine; with the identity in place of the sine,
both are minus three at three, and a square that is built on either is nine. -/
theorem simplify_interchangeable_sine :
    (letI : Number Float := Double.withTrig id fun _ => 1.0
      let s := simplify .trig ⟨2⟩ (negatedSine Float)
      let r := runLines (fun _ => 3.0) [.step (.square 0)] #[s.1] s.2
      s.2.value (fun _ => 3.0) s.1 = -3.0 ∧
        r.1.map (·.map (r.2.value fun _ => 3.0)) = some #[-3.0, 9.0]) ∧
    let s := simplify .all ⟨2⟩ (negatedSine ℝ)
    s.2.gradient (fun _ => 0) s.1 1 = (0, #[-1]) := by
  constructor
  · let := Double.withTrig id fun _ => 1.0
    intro s r
    have htrig : RuleSet.trig.Lawful Float :=
      Double.withTrig_symmetric (fun _ => rfl) (fun _ => rfl)
    have hvalue :=
      (simplify_interchangeable.1 .trig htrig negatedSine_recorded (.head _) fun _ => 3.0).1
    have hprogram := (simplify_interchangeable.2.2 id (fun _ => 1.0) (fun _ => rfl) (fun _ => rfl)
      negatedSine_recorded (.head _) fun _ => 3.0).2 (fun _ => 3.0) [.step (.square 0)] #[⟨2⟩]
      #[s.1] (by simp) (fun i => by cases i <;> simp [s]) (by simp [Line.rule?, Step.rule?])
    refine ⟨hvalue.trans ?_, hprogram.trans ?_⟩
    · decide +kernel
    · decide +kernel
  · intro s
    refine (simplify_interchangeable.2.1 .all negatedSine_recorded (.head _)
      (fun _ => 0) 1).1.trans ?_
    obtain ⟨hwf, hinside⟩ := (negatedSine_recorded (R := ℝ)).wellFormed
    have hunfold : (negatedSine ℝ).unfold 2 = .unary .sin (.unary .neg (.var 0)) := by
      simp [negatedSine, unfold, Node.expression]
    refine (gradient_eq_denote hwf (hinside _ (.head _)) _ 1).trans ?_
    rw [denote, Tangent.denote_eq, hunfold]
    simp [Expression.derivative, Expression.value, UnaryOp.slope, UnaryOp.apply, Array.ofFn_succ]

end Graph

end PlaneFigure
