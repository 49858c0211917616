import Mathlib.Tactic.SplitIfs
import PlaneFigure.Draft.Basic

/-!
What a single instruction does. It passes its checks and leads to an action; the action is a
placement, or it only computes on the memory.
-/

namespace PlaneFigure

open PlaneFigure.Geometry

/-- Two lines by points on them, with all that decides whether they are parallel. -/
structure Geometry.Crossing (S : Type) where
  lines : TwoPoints S × TwoPoints S
  det : S
  directions : Point S × Point S

section Record

variable {S R μ : Type} [Number R] [Scalar S R μ]

def Geometry.Line.cross (l m : Line S) : StateM μ (Crossing S) := do
  let p ← l.points
  let q ← m.points
  return ⟨(p, q), ← p.det q, ← p.direction, ← q.direction⟩

def Geometry.Crossing.point (x : Crossing S) : StateM μ (Point S) := x.lines.1.intersection x.lines.2

/-- What an action other than a placement adds, as a computation on the memory alone. -/
def Action.record : Action S → StateM μ (Addition S R)
  | place _ => return {}
  | construct name c => return { points := [(name, ← c.point)] }
  | intersect name l m => do
    let x ← l.2.cross m.2
    return { points := [(name, ← x.point)] }
  | relate label r => return { losses := ← r.losses label }

theorem checkedIntersection_eq (degeneracy : R) (l m : LineSpec × Line S) (c : Canvas R μ) :
    checkedIntersection degeneracy l m c =
      let r := l.2.cross m.2 c.memory
      if transversal degeneracy { c with memory := r.2 } r.1.det r.1.directions.1 r.1.directions.2 then
        (.ok (r.1.point r.2).1, { c with memory := (r.1.point r.2).2 })
      else (.error (.parallelLines l.1 m.1), { c with memory := r.2 }) := by
  have happ : ∀ (b : Bool) (y z : StateM (Canvas R μ) (Except DraftError (Point S))) (c),
      (if b then y else z) c = if b then y c else z c := by
    intro b y z c
    cases b <;> rfl
  exact happ ..

variable [Uniform R]

theorem Action.run_intersect (degeneracy : R) (name : String) (l m : LineSpec × Line S)
    (c : Canvas R μ) :
    (intersect name l m).run degeneracy c =
      let r := l.2.cross m.2 c.memory
      if transversal degeneracy { c with memory := r.2 } r.1.det r.1.directions.1 r.1.directions.2 then
        (.ok { points := [(name, (r.1.point r.2).1)] }, { c with memory := (r.1.point r.2).2 })
      else (.error (.parallelLines l.1 m.1), { c with memory := r.2 }) := by
  simp only [run, bind, StateT.bind, checkedIntersection_eq]
  split_ifs <;> rfl

variable {degeneracy : R} {a : Action S} {c c' : Canvas R μ}

/-- An action is a placement, or it only works on the memory. -/
theorem Action.run_ok {x : Addition S R} (h : a.run degeneracy c = (.ok x, c')) :
    (∃ p : Placement, a = .place p ∧ p.place (S := S).run c = (.ok x, c')) ∨
      (∀ p, a ≠ .place p) ∧ a.record c.memory = (x, c'.memory) ∧
        c' = { c with memory := c'.memory } := by
  cases a with
  | place p =>
      refine .inl ⟨p, rfl, ?_⟩
      simp only [run, bind, StateT.bind] at h
      cases hp : p.place (S := S).run c with
      | mk result c₁ =>
          rw [hp] at h
          cases result <;> cases h
          rfl
  | construct name k =>
      cases h
      exact .inr ⟨nofun, rfl, rfl⟩
  | intersect name l m =>
      rw [run_intersect] at h
      dsimp only at h
      split_ifs at h <;> cases h
      exact .inr ⟨nofun, rfl, rfl⟩
  | relate label r =>
      cases h
      exact .inr ⟨nofun, rfl, rfl⟩

/-- An action fails because a variable is refused or lines are parallel. -/
theorem Action.run_refused {e : DraftError} (h : a.run degeneracy c = (.error e, c')) :
    (∃ (p : Placement) (v : VariableError R), a = .place p ∧
      (p.place (S := S).run c).1 = .error v) ∨ ∃ l m, e = .parallelLines l m := by
  cases a with
  | place p =>
      refine .inl ⟨p, ?_⟩
      simp only [run, bind, StateT.bind] at h
      cases hp : p.place (S := S).run c with
      | mk result c₁ =>
          rw [hp] at h
          cases result <;> cases h
          exact ⟨_, rfl, rfl⟩
  | construct name k => cases h
  | intersect name l m =>
      rw [run_intersect] at h
      dsimp only at h
      split_ifs at h <;> cases h
      exact .inr ⟨l.1, m.1, rfl⟩
  | relate label r => cases h

namespace Draft

variable {d d' : Draft S R μ} {i : Instruction}

/-- What an instruction does that is carried out. -/
theorem process_ok {x : Addition S R} (h : process i d = (.ok x, d')) :
    ∃ a c, d.points.check i = .ok a ∧ a.run d.settings.degeneracy d.canvas = (.ok x, c) ∧
      d' = { d.add x with canvas := c } := by
  unfold process at h
  split at h
  · cases h
  split at h
  · cases h
    exact ⟨_, _, ‹_›, ‹_›, rfl⟩
  · cases h

/-- Constructions from points do not fail. -/
theorem process_construct {name : String} {k : Construction S}
    (h : d.points.check i = .ok (.construct name k)) : ∃ x d', process i d = (.ok x, d') := by
  unfold process
  rw [h]
  exact ⟨_, _, rfl⟩

/-- What an instruction does that is refused. -/
theorem process_refused {e : DraftError} (h : process i d = (.error e, d')) :
    d'.points = d.points ∧ d'.losses = d.losses ∧ d'.canvas.memory = d.canvas.memory := by
  unfold process at h
  split at h
  · cases h
    exact ⟨rfl, rfl, rfl⟩
  split at h
  · cases h
  · cases h
    exact ⟨rfl, rfl, rfl⟩

theorem processAll_settings {is : List Instruction} (h : processAll is d = .ok d') :
    d'.settings = d.settings := by
  induction is generalizing d with
  | nil =>
      cases h
      rfl
  | cons i is ih =>
      unfold processAll at h
      split at h
      next hi =>
        obtain ⟨_, _, _, _, hadd⟩ := process_ok hi
        rw [ih h, hadd]
        rfl
      next => cases h

end Draft

end Record

end PlaneFigure
