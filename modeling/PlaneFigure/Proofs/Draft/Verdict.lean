import PlaneFigure.Proofs.Draft.Checks
import PlaneFigure.Proofs.Draft.Refusal
import PlaneFigure.Proofs.Draft.Sound

/-!
Which instructions are refused, and why. What can be told from the names of the points is checked
first; what is left to be checked is that lines which are to be intersected are not parallel, by the
numbers that the coordinates of the points are at the time. Nothing else is ever in the way.
-/

namespace PlaneFigure

open PlaneFigure.Geometry

/-- Whether two lines on numbers are far enough from parallel. -/
def Geometry.Line.transversal {R : Type} [Number R] (degeneracy : R) (l m : Line R) : Bool :=
  let x := calculate (l.cross m)
  Number.lt (degeneracy * (Number.hypotenuse x.directions.1.x x.directions.1.y *
    Number.hypotenuse x.directions.2.x x.directions.2.y)) (Number.abs x.det)

namespace Instruction

variable {R : Type} [Number R]

/-- What can only be checked by numbers, for points with the coordinates in a table. -/
def numberChecks (degeneracy : R) (t : PointTable R) : Instruction → List Check
  | .compute _ ⟨"interLL", [.line l, .line m]⟩ =>
    match t.line l, t.line m with
    | .ok l', .ok m' => [⟨l'.transversal degeneracy m', .parallelLines l m⟩]
    | _, _ => []
  | _ => []

/-- All checks of an instruction, in order. -/
def checks (degeneracy : R) (t : PointTable R) (i : Instruction) : List Check :=
  i.nameChecks t.contains ++ i.numberChecks degeneracy t

/-- Numbers matter for the intersection of two lines only. -/
theorem numberChecks_eq_nil {S : Type} {degeneracy : R} {t : PointTable R} {u : PointTable S}
    {i : Instruction} {a : Action S} (h : u.check i = .ok a)
    (ha : ∀ name l m, a ≠ .intersect name l m) : i.numberChecks degeneracy t = [] := by
  unfold numberChecks
  split
  · obtain ⟨-, l', m', -, -, rfl⟩ := PointTable.check_intersection h
    exact (ha _ _ _ rfl).elim
  · rfl

end Instruction

/-- Lines to be intersected stand for each other. -/
theorem Stands.lines {R : Type} [Number R] {w : World R} {name name' : String}
    {l m : LineSpec × Line (Formula R)} {l' m' : LineSpec × Line R}
    (h : Stands w (Action.intersect name l m) (Action.intersect name' l' m')) :
    Stands w l.2 l'.2 ∧ Stands w m.2 m'.2 := by
  obtain ⟨z, hz, hz'⟩ := h.out
  cases z <;> cases hz
  cases hz'
  exact ⟨⟨_, rfl, rfl⟩, ⟨_, rfl, rfl⟩⟩

namespace Draft

variable {S μ : Type}

/-- Only the current values of formulas decide whether lines are far enough from parallel. -/
theorem transversal_eq_of_values {R : Type} [Number R] (degeneracy : R) (c : Canvas R (Graph R))
    (memory : Graph R) {det : Formula R} {p q : Point (Formula R)} {det' : R} {p' q' : Point R}
    (hdet : memory.value c.assignment det = det') (hp : p.map (memory.value c.assignment) = p')
    (hq : q.map (memory.value c.assignment) = q') :
    transversal degeneracy { c with memory } det p q =
      Number.lt (degeneracy * (Number.hypotenuse p'.x p'.y * Number.hypotenuse q'.x q'.y))
        (Number.abs det') := by
  subst hdet hp hq
  rfl

/-- Whether lines are far enough from parallel, when what decides it is recorded on a canvas. -/
def crosses {R : Type} [Number R] [Scalar S R μ] (degeneracy : R) (c : Canvas R μ) (l m : Line S) :
    Bool :=
  let r := l.cross m c.memory
  transversal degeneracy { c with memory := r.2 } r.1.det r.1.directions.1 r.1.directions.2

section Intersections

variable {R : Type} [Number R] [Uniform R] [Scalar S R μ] {d : Draft S R μ} {i : Instruction}
  {name : String} {l m : LineSpec × Line S}

/-- Lines that cross are intersected, -/
theorem process_crossing (hi : d.points.check i = .ok (.intersect name l m))
    (h : crosses d.settings.degeneracy d.canvas l.2 m.2 = true) :
    let r := l.2.cross m.2 d.canvas.memory
    let x : Addition S R := { points := [(name, (r.1.point r.2).1)] }
    process i d =
      (.ok x, { d.add x with canvas := { d.canvas with memory := (r.1.point r.2).2 } }) := by
  have hrun := (Action.run_intersect d.settings.degeneracy name l m d.canvas).trans (if_pos h)
  unfold process
  rw [hi]
  dsimp only
  rw [hrun]

theorem process_intersect (hi : d.points.check i = .ok (.intersect name l m))
    (h : crosses d.settings.degeneracy d.canvas l.2 m.2 = true) :
    ∃ x d' p, process i d = (.ok x, d') ∧ d'.points = d.points.append [(name, p)] :=
  ⟨_, _, _, process_crossing hi h, rfl⟩

/-- and others are refused. -/
theorem process_parallel (hi : d.points.check i = .ok (.intersect name l m))
    (h : crosses d.settings.degeneracy d.canvas l.2 m.2 = false) :
    process i d = (.error (.parallelLines l.1 m.1), d) := by
  have hrun := (Action.run_intersect d.settings.degeneracy name l m d.canvas).trans
    (if_neg (Bool.eq_false_iff.mp h))
  unfold process
  rw [hi]
  dsimp only
  rw [hrun]

end Intersections

variable [Scalar S Float μ]

/-- The checks decide what becomes of an instruction, if lines cross on the canvas just where they do
by numbers. -/
theorem process_decides {d : Draft S Float μ} {i : Instruction} {t : PointTable Float}
    (hcontains : t.contains = d.points.contains)
    (hcrosses : ∀ name l m, d.points.check i = .ok (.intersect name l m) →
      ∃ l' m', t.line l.1 = .ok l' ∧ t.line m.1 = .ok m' ∧
        crosses d.settings.degeneracy d.canvas l.2 m.2 = l'.transversal d.settings.degeneracy m') :
    Decides (i.checks d.settings.degeneracy t) (process i d).1 := by
  have hprocess : (process i d).1 =
      d.points.check i >>= fun a => (a.run d.settings.degeneracy d.canvas).1 := by
    unfold process
    cases d.points.check i with
    | error e => rfl
    | ok a =>
        dsimp only [bind, Except.bind]
        split <;> rename_i hrun <;> rw [hrun]
  rw [hprocess, Instruction.checks, hcontains]
  refine (d.points.check_decides i).bind fun a ha => ?_
  -- variables are always granted, and losses are only recorded; lines are all that is left to check
  cases a with
  | place p =>
      rw [Instruction.numberChecks_eq_nil ha (by simp)]
      obtain ⟨x, c, hplace⟩ := p.place_granted (S := S) d.canvas
      have hrun : ((Action.place p : Action S).run d.settings.degeneracy d.canvas).1 = .ok x := by
        simp only [Action.run, bind, StateT.bind, hplace]
        rfl
      rw [hrun]
      exact .pure x
  | construct name k =>
      rw [Instruction.numberChecks_eq_nil ha (by simp)]
      exact .pure _
  | relate label r =>
      rw [Instruction.numberChecks_eq_nil ha (by simp)]
      exact .pure _
  | intersect name l m =>
      obtain ⟨l', m', hl, hm, hcross⟩ := hcrosses name l m ha
      obtain ⟨rfl, -, -⟩ := PointTable.check_eq_intersect ha
      simp only [Instruction.numberChecks, hl, hm, ← hcross]
      rw [Action.run_intersect]
      dsimp only [crosses]
      split_ifs with htest
      · exact .skip htest (.pure _)
      · exact .fail (Bool.eq_false_iff.mpr htest)

/-- On numbers, what decides it is what is computed. -/
theorem crosses_numbers {R : Type} [Number R] (degeneracy : R) (c : Canvas R Unit) (l m : Line R) :
    crosses degeneracy c l m = l.transversal degeneracy m :=
  rfl

/-- On formulas, lines cross just where those through the current positions of the points do. -/
theorem Sound.crosses_eq {R : Type} [Number R] {d : SymbolicDraft R} (h : d.Sound) (degeneracy : R)
    {i : Instruction} {name : String} {l m : LineSpec × Line (Formula R)}
    (hi : d.points.check i = .ok (.intersect name l m)) :
    crosses degeneracy d.canvas l.2 m.2 =
      (l.2.map (d.canvas.memory.value d.canvas.assignment)).transversal degeneracy
        (m.2.map (d.canvas.memory.value d.canvas.assignment)) := by
  -- in the world of the current values alone, what is recorded has the values that are computed
  let ρ := d.canvas.assignment
  let w : World R := ⟨d.canvas.memory, h.graph, {ρ}⟩
  have hactions := check_stands (h.points_stand (ρ := ρ)) i
  rw [positions, PointTable.check_map, hi] at hactions
  obtain ⟨hl, hm⟩ := Stands.lines hactions.out
  have hrun : Simulates (OnGraph w.basis) w (l.2.cross m.2)
      ((l.2.map (d.canvas.memory.value ρ)).cross (m.2.map (d.canvas.memory.value ρ))) := .cross
  obtain ⟨w', -, ⟨hgraph, hassignments, -⟩, hcross⟩ := hrun d.canvas.memory () ⟨rfl, rfl, rfl⟩
  obtain ⟨-, hdet, hdirections⟩ := hcross.out
  obtain ⟨hp, hq⟩ := hdirections.out
  have hρ : ρ ∈ w'.assignments := hassignments ▸ rfl
  have hdetValue := hdet.out.2 ρ hρ
  have hpValue := hp.point_eq hρ
  have hqValue := hq.point_eq hρ
  rw [hgraph] at hdetValue hpValue hqValue
  exact transversal_eq_of_values degeneracy d.canvas _ hdetValue hpValue hqValue

/-- An instruction keeps a draft sound, also if it is refused. -/
theorem Sound.after_process {R : Type} [Number R] [Uniform R] [Range.AllSound R]
    {d : SymbolicDraft R} (h : d.Sound) (i : Instruction) : (process i d).2.Sound := by
  cases hi : Draft.process i d with
  | mk result d' =>
      cases result with
      | error e => exact process_error hi ▸ h
      | ok x =>
          obtain ⟨a, -, hcheck, -⟩ := Draft.process_ok hi
          exact (h.process_ok hi hcheck).1

/-- Drafts on formulas to which instructions lead that are carried out one by one, also after some
have been refused. -/
inductive Reachable : SymbolicDraft Float → Prop
  | start (draws : Draws Float) (settings : DraftSettings Float) :
      Reachable ⟨{ memory := Graph.empty, draws }, settings, {}, {}⟩
  | process {d : SymbolicDraft Float} (h : Reachable d) (i : Instruction) :
      Reachable (process i d).2

theorem Reachable.sound {d : SymbolicDraft Float} (h : Reachable d) : d.Sound := by
  induction h with
  | start draws settings => exact .start draws settings
  | process _ i ih => exact ih.after_process i

/-- An instruction is carried out just if it passes its checks, and otherwise refused with the error
of the first that it does not pass: on numbers from any draft, and on formulas from any that
instructions lead to, where the checks are those of the current positions of the points. -/
theorem process_decided :
    (∀ (d : Draft Float Float Unit) (i : Instruction),
      Decides (i.checks d.settings.degeneracy d.points) (process i d).1) ∧
    ∀ (d : SymbolicDraft Float) (i : Instruction), Reachable d →
      Decides (i.checks d.settings.degeneracy (d.positions d.canvas.assignment))
        (process i d).1 := by
  constructor
  · intro d i
    refine process_decides rfl fun name l m hi => ?_
    obtain ⟨-, hl, hm⟩ := PointTable.check_eq_intersect hi
    exact ⟨l.2, m.2, hl, hm, crosses_numbers ..⟩
  · intro d i hd
    refine process_decides (funext fun name => d.points.contains_map _ name) fun name l m hi => ?_
    obtain ⟨-, hl, hm⟩ := PointTable.check_eq_intersect hi
    refine ⟨_, _, ?_, ?_, hd.sound.crosses_eq d.settings.degeneracy hi⟩
    · rw [positions, PointTable.line_map, hl]
      rfl
    · rw [positions, PointTable.line_map, hm]
      rfl

/-- Three free points, a relation that is one of four, and a line that is parallel to itself. -/
theorem process_decided_triangle :
    let d := (process (.sample ["A", "B", "C"] "uniform" [])
      (⟨Canvas.start Graph.empty (.uniform 7), .standard, {}, {}⟩ : SymbolicDraft Float)).2
    let i : Instruction := .assert ⟨"perp", ["A", "B", "C"], false⟩
    let l : LineSpec := ⟨"connecting", ["A", "B"]⟩
    let j : Instruction := .compute "D" ⟨"interLL", [.line l, .line l]⟩
    Decides (i.checks d.settings.degeneracy (d.positions d.canvas.assignment)) (process i d).1 ∧
      (process i d).1.map (fun _ => ()) = .error (.relationPoints "perp" 4 3) ∧
      Decides (j.checks d.settings.degeneracy (d.positions d.canvas.assignment)) (process j d).1 ∧
      (process j d).1.map (fun _ => ()) = .error (.parallelLines l l) := by
  intro d i l j
  have hd : Reachable d := .process (.start _ _) _
  exact ⟨process_decided.2 d i hd, by decide +kernel, process_decided.2 d j hd, by decide +kernel⟩

end Draft

end PlaneFigure
