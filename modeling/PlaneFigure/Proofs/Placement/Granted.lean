import PlaneFigure.Placement.Basic

/-!
Every variable that a placement asks for is granted, over numbers for which the ranges that samplers
use have finite ends in order and can be drawn from, as they do over doubles. So no placement ends
half way.
-/

namespace PlaneFigure

variable {S R μ α β : Type}

/-- Steps that no refused variable ends, whatever canvas they start on. -/
def Canvas.Attempt.Granted (act : Canvas.Attempt R μ α) : Prop :=
  ∀ c, ∃ a c', act.run c = (.ok a, c')

/-- After a step that no refused variable ended, all goes on. -/
theorem Canvas.Attempt.run_bind {act : Canvas.Attempt R μ α} {next : α → Canvas.Attempt R μ β}
    {a : α} {c c' : Canvas R μ} (h : act.run c = (.ok a, c')) :
    (act >>= next).run c = (next a).run c' := by
  change ExceptT.bindCont next (act.run c).1 (act.run c).2 = _
  rw [h]
  rfl

/-- Steps that come to their end do so one after the other. -/
theorem Canvas.Attempt.run_bind_eq_ok {act : Canvas.Attempt R μ α}
    {next : α → Canvas.Attempt R μ β} {b : β} {c c' : Canvas R μ}
    (h : (act >>= next).run c = (.ok b, c')) :
    ∃ a c₁, act.run c = (.ok a, c₁) ∧ (next a).run c₁ = (.ok b, c') := by
  rcases hact : act.run c with ⟨e | a, c₁⟩
  · change ExceptT.bindCont next (act.run c).1 (act.run c).2 = _ at h
    rw [hact] at h
    cases h
  · exact ⟨a, c₁, rfl, (run_bind hact).symm.trans h⟩

theorem Canvas.Attempt.run_lift (act : StateM μ α) (c : Canvas R μ) :
    (liftM act : Canvas.Attempt R μ α).run c =
      (.ok (act c.memory).1, { c with memory := (act c.memory).2 }) :=
  rfl

namespace Canvas.Attempt.Granted

theorem pure (a : α) : Granted (Pure.pure a : Canvas.Attempt R μ α) :=
  fun c => ⟨a, c, rfl⟩

theorem bind {act : Canvas.Attempt R μ α} {next : α → Canvas.Attempt R μ β}
    (hact : Granted act) (hnext : ∀ a, Granted (next a)) : Granted (act >>= next) := by
  intro c
  obtain ⟨a, c₁, h₁⟩ := hact c
  obtain ⟨b, c₂, h₂⟩ := hnext a c₁
  exact ⟨b, c₂, (run_bind h₁).trans h₂⟩

/-- Work on the memory alone asks for no variable. -/
theorem lift (act : StateM μ α) : Granted (liftM act : Canvas.Attempt R μ α) :=
  fun c => ⟨_, _, run_lift act c⟩

theorem mapM {f : α → Canvas.Attempt R μ β} (hf : ∀ a, Granted (f a)) (l : List α) :
    Granted (l.mapM f) := by
  induction l with
  | nil => exact pure []
  | cons a l ih =>
      rw [List.mapM_cons]
      exact (hf a).bind fun b => ih.bind fun bs => pure (b :: bs)

end Canvas.Attempt.Granted

/-- A range from which a variable can always be drawn. -/
def Range.Sound [Number R] [Uniform R] (r : Range R) : Prop :=
  ((Number.isFinite r.low && Number.isFinite r.high) && !Number.lt r.high r.low) = true ∧
    Uniform.drawable r = true

instance [Number R] [Uniform R] (r : Range R) : Decidable r.Sound :=
  inferInstanceAs (Decidable (_ ∧ _))

/-- Numbers over which variables can always be drawn from the ranges that samplers use. -/
class Range.AllSound (R : Type) [Number R] [Uniform R] : Prop where
  unit : (Range.unit : Range R).Sound
  half : (Range.half : Range R).Sound
  apex : (Range.apex : Range R).Sound

instance : Range.AllSound Float where
  unit := by decide +kernel
  half := by decide +kernel
  apex := by decide +kernel

/-- What is drawn from such a range becomes a variable. -/
theorem Canvas.sample_run [Number R] [Uniform R] [Scalar S R μ] (name : String) {r : Range R}
    (hr : r.Sound) (c : Canvas R μ) :
    (Canvas.sample (S := S) name r).run c =
      (.ok (create (S := S) name r c).1, (create (S := S) name r c).2) := by
  obtain ⟨hends, hdraw⟩ := hr
  have hvalid : VariableRequest.validate { name, range := r } = .ok () := by
    simp_all [VariableRequest.validate, VariableRequest.count?, pure, Except.pure]
  change request { name, range := r } c = _
  simp only [request, hvalid, Draws.canDraw, hdraw, Bool.or_true, if_true]
  rfl

/-- What follows a drawn variable goes on with its formula. -/
theorem Canvas.run_sample_bind {α : Type} [Number R] [Uniform R] [Scalar S R μ] (name : String)
    {r : Range R} (hr : r.Sound) (next : S → Canvas.Attempt R μ α) (c : Canvas R μ) :
    (Canvas.sample (S := S) name r >>= next).run c =
      (next (create (S := S) name r c).1).run (create (S := S) name r c).2 :=
  Canvas.Attempt.run_bind (sample_run name hr c)

theorem Canvas.sample_granted [Number R] [Uniform R] [Scalar S R μ] (name : String)
    {r : Range R} (hr : r.Sound) : (Canvas.sample (S := S) (μ := μ) name r).Granted :=
  fun c => ⟨_, _, sample_run name hr c⟩

namespace Placement

open Canvas.Attempt

variable [Number R] [Uniform R] [Range.AllSound R] [Scalar S R μ]

theorem freePoint_granted (name : String) :
    Granted (freePoint (S := S) (R := R) (μ := μ) name) :=
  (Canvas.sample_granted _ Range.AllSound.unit).bind fun _ =>
    (Canvas.sample_granted _ Range.AllSound.unit).bind fun _ => .pure _

theorem sampledAngle_granted (n i : Nat) :
    Granted (sampledAngle (S := S) (R := R) (μ := μ) n i) :=
  (Canvas.sample_granted _ Range.AllSound.half).bind fun _ => .lift _

theorem sampledScale_granted (i : Nat) :
    Granted (sampledScale (S := S) (R := R) (μ := μ) i) :=
  (Canvas.sample_granted _ Range.AllSound.unit).bind fun _ => .lift _

theorem placePolygon_granted (names : List String) :
    Granted (placePolygon (S := S) (R := R) (μ := μ) names) :=
  (sampledAngle_granted _ _).bind fun _ => (Granted.mapM (sampledAngle_granted _) _).bind fun _ =>
    (sampledScale_granted _).bind fun _ => (Granted.mapM sampledScale_granted _).bind fun _ =>
      .lift _

theorem apexShift_granted (shape : TriangleShape) :
    Granted (apexShift (S := S) (R := R) (μ := μ) shape) := by
  unfold apexShift
  split
  · exact .lift _
  · exact Canvas.sample_granted _ Range.AllSound.apex

theorem apexHeight_granted (shape : TriangleShape) (x : S) :
    Granted (apexHeight (R := R) (μ := μ) shape x) := by
  unfold apexHeight
  split
  · exact .lift _
  split
  · exact .lift _
  · exact (Canvas.sample_granted _ Range.AllSound.unit).bind fun z => .lift _

theorem apex_granted (shape : TriangleShape) :
    Granted (apex (S := S) (R := R) (μ := μ) shape) :=
  (apexShift_granted shape).bind fun x => (apexHeight_granted shape x).bind fun _ => .pure _

/-- A placement is carried out to its end. -/
theorem place_granted (p : Placement) : Granted (p.place (S := S) (R := R) (μ := μ)) := by
  cases p with
  | free names =>
      refine Granted.bind (Granted.mapM (fun name => ?_) names) fun _ => .pure _
      exact (freePoint_granted (S := S) (μ := μ) name).bind fun _ => .pure _
  | polygon names => exact placePolygon_granted names
  | triangle shape corner a b c =>
      exact (Granted.lift _).bind fun _ => (Granted.lift _).bind fun _ =>
        (apex_granted shape).bind fun _ => .pure _

end Placement

end PlaneFigure
