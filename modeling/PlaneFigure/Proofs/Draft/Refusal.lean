import PlaneFigure.Draft.Basic
import PlaneFigure.Proofs.Placement.Granted

/-!
Refused instructions. Instructions work on the canvas of the draft itself, and nothing is undone
but the recording of formulas; still a refused instruction leaves no trace, because none is refused
after it has created a variable. So going on after refusals amounts to leaving the refused
instructions out.
-/

namespace PlaneFigure

variable {S R μ α β : Type}

namespace Canvas

/-- Steps that neither create variables nor draw numbers. -/
def OnlyRecords (act : StateM (Canvas R μ) α) : Prop :=
  ∀ c, ∃ memory, (act c).2 = { c with memory }

namespace OnlyRecords

theorem pure (a : α) : OnlyRecords (Pure.pure a : StateM (Canvas R μ) α) :=
  fun c => ⟨c.memory, rfl⟩

theorem get : OnlyRecords (MonadState.get : StateM (Canvas R μ) (Canvas R μ)) :=
  fun c => ⟨c.memory, rfl⟩

theorem lift (act : StateM μ α) : OnlyRecords (liftM act : StateM (Canvas R μ) α) :=
  fun c => ⟨(act c.memory).2, rfl⟩

theorem bind {act : StateM (Canvas R μ) α} {next : α → StateM (Canvas R μ) β}
    (hact : OnlyRecords act) (hnext : ∀ a, OnlyRecords (next a)) :
    OnlyRecords (act >>= next) := by
  intro c
  obtain ⟨m₁, h₁⟩ := hact c
  obtain ⟨m₂, h₂⟩ := hnext (act c).1 (act c).2
  refine ⟨m₂, ?_⟩
  change (next (act c).1 (act c).2).2 = _
  rw [h₂, h₁]

end OnlyRecords

end Canvas

section Actions

open Canvas

variable [Number R] [Scalar S R μ]

theorem checkedIntersection_onlyRecords (degeneracy : R) (l m : LineSpec × Geometry.Line S) :
    OnlyRecords (checkedIntersection (μ := μ) degeneracy l m) := by
  unfold checkedIntersection
  refine (OnlyRecords.lift _).bind fun p => (OnlyRecords.lift _).bind fun q =>
    (OnlyRecords.lift _).bind fun det => (OnlyRecords.lift _).bind fun d =>
    (OnlyRecords.lift _).bind fun e => OnlyRecords.get.bind fun c => ?_
  split
  · exact (OnlyRecords.lift _).bind fun _ => .pure _
  · exact .pure _

variable [Uniform R] [Range.AllSound R]

/-- An action that fails has created no variable: placements do not fail, and nothing else creates
variables. -/
theorem Action.run_error {degeneracy : R} {a : Action S} {c c' : Canvas R μ}
    {e : DraftError} (h : a.run degeneracy c = (.error e, c')) :
    ∃ memory, c' = { c with memory } := by
  cases a with
  | place placement =>
      obtain ⟨added, c₁, hplace⟩ := placement.place_granted (S := S) (μ := μ) c
      simp [Action.run, bind, StateT.bind, hplace] at h
      cases h
  | construct name construction => cases h
  | relate label r => cases h
  | intersect name l m =>
      obtain ⟨memory, hm⟩ := checkedIntersection_onlyRecords degeneracy l m c
      refine ⟨memory, ?_⟩
      rw [← hm]
      simp only [Action.run, bind, StateT.bind] at h
      cases hr : checkedIntersection degeneracy l m c with
      | mk result c₁ =>
          rw [hr] at h
          cases result <;> cases h
          rfl

/-- A refused instruction leaves the draft as it was: the tables, the variables with their values,
the source of initial values, and what is recorded. -/
theorem Draft.process_error {d d' : Draft S R μ} {i : Instruction} {e : DraftError}
    (h : process i d = (.error e, d')) : d' = d := by
  unfold process at h
  split at h
  · cases h
    rfl
  split at h
  · cases h
  · obtain ⟨memory, rfl⟩ := Action.run_error ‹_›
    cases h
    rfl

end Actions

namespace Draft

/-- Carry out instructions one by one, going on after those that are refused. The result are those
that were carried out. -/
def attemptAll [Number R] [Uniform R] [Scalar S R μ] :
    List Instruction → StateM (Draft S R μ) (List Instruction)
  | [] => return []
  | i :: rest => do
    match ← process i with
    | .ok _ => return i :: (← attemptAll rest)
    | .error _ => attemptAll rest

theorem processAll_attemptAll [Number R] [Uniform R] [Range.AllSound R] [Scalar S R μ]
    (is : List Instruction) (d : Draft S R μ) :
    processAll (attemptAll is d).1 d = .ok (attemptAll is d).2 := by
  induction is generalizing d with
  | nil => rfl
  | cons i rest ih =>
      simp only [attemptAll, bind, StateT.bind]
      cases hi : process i d with
      | mk result d₁ =>
          cases result with
          | ok a =>
              change processAll (i :: (attemptAll rest d₁).1) d = _
              simp only [processAll, hi]
              exact ih d₁
          | error e =>
              -- the draft is what it was, and the instruction is not among the result
              obtain rfl := process_error hi
              exact ih d₁

variable [Scalar S Float μ]

/-- A refused instruction changes nothing. So when instructions are carried out one by one, going on
after refusals, the draft is in the end the one that those instructions make which were not
refused, before and after it is finished. -/
theorem refused_leaves_no_trace :
    (∀ (d : Draft S Float μ) (i : Instruction),
      match process i d with
      | (.ok _, _) => True
      | (.error _, d') => d' = d) ∧
    ∀ (d : Draft S Float μ) (is : List Instruction),
      let (carriedOut, d') := attemptAll is d
      processAll carriedOut d = .ok d' ∧ (processAll carriedOut d).map finish = .ok d'.finish := by
  refine ⟨fun d i => ?_, fun d is => ?_⟩
  · split
    · trivial
    · exact process_error ‹_›
  · have h := processAll_attemptAll is d
    exact ⟨h, by rw [h]; rfl⟩

end Draft

end PlaneFigure
