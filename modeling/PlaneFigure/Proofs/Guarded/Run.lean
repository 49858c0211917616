import PlaneFigure.Proofs.Draft.Tables
import PlaneFigure.Proofs.Guarded.Check
import PlaneFigure.Proofs.Guarded.Polygon

/-!
Whole runs with all that they take for granted. The table of points is one with an index, to which
points are added one by one; the names of a draft are different from each other, so its indexed form
goes through the same steps. No run ever faults.
-/

namespace PlaneFigure

/-- A draft whose points are found through an index. -/
structure IndexedDraft (S R μ : Type) where
  canvas : Canvas R μ
  settings : DraftSettings R
  points : IndexedTable S := {}
  losses : LossTable S R := {}

variable {S R μ α : Type}

def Draft.indexed (d : Draft S R μ) : IndexedDraft S R μ :=
  ⟨d.canvas, d.settings, d.points.indexed, d.losses⟩

namespace Guarded

/-! ### Regularizers -/

/-- The pairs of an entry with those behind its position. -/
def pairsAt (l : List α) (e : α × Nat) : Except Fault (List (α × α)) :=
  return (← entriesFrom l (e.2 + 1)).map (e.1, ·)

/-- Every two entries of a list, in order. -/
def pairs (l : List α) : Except Fault (List (α × α)) := do
  let rows ← l.zipIdx.mapM (pairsAt l)
  return rows.flatten

theorem mapM_pairsAt (before l : List α) :
    ∃ rows, (l.zipIdx before.length).mapM (pairsAt (before ++ l)) = .ok rows ∧
      rows.flatten = Regularizer.pairs l := by
  induction l generalizing before with
  | nil => exact ⟨[], rfl, rfl⟩
  | cons x l ih =>
      obtain ⟨rows, hrows, hflatten⟩ := ih (before ++ [x])
      rw [List.append_assoc, List.singleton_append, List.length_append, List.length_singleton]
        at hrows
      have hrest : entriesFrom (before ++ x :: l) (before.length + 1) = .ok l := by
        rw [entriesFrom_eq_ok (by simp), ← List.drop_drop, List.drop_left, List.drop_one,
          List.tail_cons]
      refine ⟨l.map (x, ·) :: rows, ?_, congrArg (l.map (x, ·) ++ ·) hflatten⟩
      rw [List.zipIdx_cons, List.mapM_cons, pairsAt, hrest, hrows]
      rfl

/-- Behind every entry there is a part of the list, if only an empty one. -/
theorem pairs_eq_ok (l : List α) : pairs l = .ok (Regularizer.pairs l) := by
  obtain ⟨rows, hrows, hflatten⟩ := mapM_pairsAt [] l
  change l.zipIdx.mapM (pairsAt l) = _ at hrows
  rw [pairs, hrows, ← hflatten]
  rfl

section Mean

variable [Number R] [Scalar S R μ]

def mean (xs : List S) : Guarded μ S := do
  let sum ← (Scalar.sum xs : StateM μ S)
  let n ← divisor xs.length
  (Scalar.divConst sum (Number.ofNat n) : StateM μ S)

def meanNorm (points : List (Point S)) : Guarded μ S := do
  let origin ← (Point.const 0.0 0.0 : StateM μ (Point S))
  let norms ← (points.mapM fun p => Geometry.dist p origin : StateM μ (List S))
  mean norms

def meanCloseness (points : List (Point S)) : Guarded μ S := do
  let one ← (Scalar.const 1.0 : StateM μ S)
  let pairs ← pairs points
  let terms ← (pairs.mapM fun (p, q) => do
    Scalar.div one (← Scalar.addConst (← Geometry.sqDist p q) 1.0) : StateM μ (List S))
  mean terms

theorem length_mapM {β σ : Type} (f : α → StateM σ β) (l : List α) (s : σ) :
    (l.mapM f s).1.length = l.length := by
  induction l generalizing s with
  | nil => rfl
  | cons a l ih =>
      rw [List.mapM_cons]
      exact congrArg (· + 1) (ih (f a s).2)

theorem mean_does {xs : List S} (h : xs.length ≠ 0) :
    (mean xs : Guarded μ S).Does (Regularizer.mean xs) :=
  (Does.total _).bind fun _ => .granted (divisor_eq_ok h) (Does.total _)

/-- Of nothing there is no mean. -/
example : mean ([] : List Float) () = .error .noDivisor := rfl

theorem meanNorm_does {points : List (Point S)} (h : 0 < points.length) :
    (meanNorm points : Guarded μ S).Does (Regularizer.meanNorm points) :=
  (Does.total _).bind fun _ => .bind_map (f := id) (P := (·.length = points.length))
    (Does.total _) (length_mapM _ _) fun _ hlength => mean_does (hlength ▸ Nat.ne_of_gt h)

theorem pairs_length_ne_zero {l : List α} (h : 1 < l.length) :
    (Regularizer.pairs l).length ≠ 0 := by
  rcases l with _ | ⟨x, _ | ⟨y, l⟩⟩
  · simp at h
  · simp at h
  · exact nofun

theorem meanCloseness_does {points : List (Point S)} (h : 1 < points.length) :
    (meanCloseness points : Guarded μ S).Does (Regularizer.meanCloseness points) :=
  (Does.total _).bind fun _ => .granted (pairs_eq_ok points) <|
    .bind_map (f := id) (P := (·.length = (Regularizer.pairs points).length)) (Does.total _)
      (length_mapM _ _) fun _ hlength => mean_does (hlength ▸ pairs_length_ne_zero h)

end Mean

/-! ### Actions -/

section Actions

variable [Number R] [Uniform R] [Scalar S R μ]

def place : Placement → Attempt R μ (Addition S R)
  | .polygon names => placePolygon names
  | p => ofAttempt p.place

def runAction (degeneracy : R) (a : Action S) :
    Guarded (Canvas R μ) (Except DraftError (Addition S R)) :=
  match a with
  | .place p => do
    match ← (place p).run with
    | .ok x => return .ok x
    | .error e => return .error (.refusedVariable e.message)
  | a => ofTotal (a.run degeneracy)

end Actions

end Guarded

/-- What a checked placement may count on: a polygon has enough vertices. -/
def Placement.Checked : Placement → Prop
  | polygon names => 3 ≤ names.length
  | _ => True

theorem Placement.checked_of_ofSampler {sampler : Sampler} {names : List String} {p : Placement}
    (h : ofSampler sampler names = .ok p) : p.Checked := by
  obtain rfl | ⟨hlength, rfl⟩ | ⟨_, _, _, _, _, -, rfl⟩ := ofSampler_cases h
  · trivial
  · exact hlength
  · trivial

theorem PointTable.checked_of_check {t : PointTable S} {i : Instruction} {p : Placement}
    (h : t.check i = .ok (.place p)) : p.Checked := by
  cases i with
  | sample points sampler args =>
      obtain ⟨-, _, _, -, hp, ha⟩ := check_sample h
      cases ha
      exact Placement.checked_of_ofSampler hp
  | compute point c => obtain ⟨-, ⟨_, ha⟩ | ⟨_, _, ha⟩⟩ := check_compute h <;> cases ha
  | parameterize point id =>
      obtain ⟨-, ha⟩ := check_parameterize h
      cases ha
      trivial
  | assert c =>
      obtain ⟨-, _, _, _, -, -, -, -, ha⟩ := constraint_eq_ok.mp h
      cases ha

namespace Guarded

variable [Scalar S Float μ]

theorem place_does {p : Placement} (h : p.Checked) :
    (place p : Attempt Float μ (Addition S Float)).run.Does p.place.run := by
  cases p with
  | polygon names => exact placePolygon_does (Nat.lt_of_lt_of_le (by decide) h)
  | _ => exact Does.ofAttempt (Placement.place_granted _)

theorem runAction_does (degeneracy : Float) {a : Action S} (h : ∀ p, a = .place p → p.Checked) :
    (runAction (μ := μ) degeneracy a).Does (a.run degeneracy) := by
  cases a with
  | place p =>
      refine (place_does (h p rfl)).bind fun r => ?_
      cases r with
      | ok x => exact Does.pure _
      | error e => exact Does.pure _
  | _ => exact Does.total _

end Guarded

/-! ### Drafts -/

namespace IndexedDraft

open Guarded

section Definitions

variable [Number R]

def add (x : Addition S R) (d : IndexedDraft S R μ) : Except Fault (IndexedDraft S R μ) :=
  return { d with points := ← x.points.foldlM (fun t e => t.insertNew e.1 e.2) d.points
                  losses := d.losses.append x.losses }

def regularize (label : String) (weight : R) (enough : Bool)
    (residual : List (Point S) → Guarded μ S) (d : IndexedDraft S R μ) :
    Except Fault (IndexedDraft S R μ) :=
  if Number.lt 0.0 weight && enough then do
    let (x, memory) ← residual (d.points.entries.toList.map (·.2)) d.canvas.memory
    return { d with canvas.memory := memory, losses := d.losses.append [(label, ⟨x, weight⟩)] }
  else return d

def finish [Scalar S R μ] (d : IndexedDraft S R μ) : Except Fault (IndexedDraft S R μ) := do
  let n := d.points.entries.size
  let d ← d.regularize "points-norm" d.settings.regularizePoints (0 < n) meanNorm
  d.regularize "points-distinct" d.settings.makeDistinct (1 < n) meanCloseness

variable [Uniform R] [Scalar S R μ]

def process (i : Instruction) :
    Guarded (IndexedDraft S R μ) (Except DraftError (Addition S R)) := fun d => do
  match ← (d.points.check i).run with
  | .error e => return (.error e, d)
  | .ok action =>
    match ← runAction d.settings.degeneracy action d.canvas with
    | (.ok x, canvas) => return (.ok x, { ← d.add x with canvas })
    | (.error e, canvas) =>
      return (.error e, { d with canvas := { canvas with memory := d.canvas.memory } })

def processAll : List Instruction → IndexedDraft S R μ →
    Except Fault (Except DraftError (IndexedDraft S R μ))
  | [], d => return .ok d
  | i :: rest, d => do
    match ← process i d with
    | (.ok _, d) => processAll rest d
    | (.error e, _) => return .error e

/-- The draft that instructions describe, on a given canvas. -/
def ofInstructions (canvas : Canvas R μ) (settings : DraftSettings R) (is : List Instruction) :
    Except Fault (Except DraftError (IndexedDraft S R μ)) := do
  match ← processAll is { canvas, settings } with
  | .ok d => return .ok (← d.finish)
  | .error e => return .error e

end Definitions

end IndexedDraft

namespace Draft

open Guarded

section Tables

variable {d : Draft S R μ}

theorem indexed_add (hd : d.points.names.Nodup) {x : Addition S R}
    (hnew : (d.points.names ++ x.pointNames).Nodup) :
    d.indexed.add x = .ok (d.add x).indexed := by
  have hinsert := (PointTable.indexed_represents hd).insertNew_foldlM hnew
  rw [← PointTable.indexed_append] at hinsert
  exact bind_eq_ok.mpr ⟨_, hinsert, rfl⟩

variable [Number R]

theorem indexed_regularize (hd : d.points.names.Nodup) {label : String} {weight : R}
    {enough : Bool} {residual : List (Point S) → StateM μ S}
    {residual' : List (Point S) → Guarded μ S}
    (h : enough = true → (residual' (d.points.entries.map (·.2))).Does
      (residual (d.points.entries.map (·.2)))) :
    d.indexed.regularize label weight enough residual' =
      .ok (d.regularize label weight enough residual).indexed := by
  unfold IndexedDraft.regularize regularize
  split_ifs with hneeded
  · have hentries : d.indexed.points.entries.toList = d.points.entries :=
      (PointTable.indexed_represents hd).entries
    rw [hentries, h (Bool.and_eq_true_iff.mp hneeded).2]
    rfl
  · rfl

theorem indexed_finish [Scalar S R μ] (hd : d.points.names.Nodup) :
    d.indexed.finish = .ok d.finish.indexed := by
  have hsize : d.indexed.points.entries.size = d.points.entries.length := by
    rw [← (PointTable.indexed_represents hd).entries, Array.length_toList]
    rfl
  have hlength : (d.points.entries.map (·.2)).length = d.points.entries.length := List.length_map _
  unfold IndexedDraft.finish finish
  rw [hsize]
  refine bind_eq_ok.mpr ⟨_, indexed_regularize hd fun h => ?_, indexed_regularize ?_ fun h => ?_⟩
  · exact meanNorm_does (hlength ▸ of_decide_eq_true h)
  · rw [(regularize_keeps ..).1]
    exact hd
  · rw [(regularize_keeps ..).1]
    exact meanCloseness_does (hlength ▸ of_decide_eq_true h)

end Tables

section Process

variable [Scalar S Float μ] {d : Draft S Float μ}

theorem indexed_process (hd : d.points.names.Nodup) (i : Instruction) :
    IndexedDraft.process i d.indexed = .ok ((process i d).1, (process i d).2.indexed) := by
  have hagrees : (d.indexed.points.check i).run = .ok (d.points.check i) :=
    (PointTable.indexed_represents hd).check_agrees i
  refine bind_eq_ok.mpr ⟨_, hagrees, ?_⟩
  cases hcheck : d.points.check i with
  | error e =>
      rw [process, hcheck]
      rfl
  | ok action =>
      have hdoes : runAction d.settings.degeneracy action d.canvas =
          .ok (action.run d.settings.degeneracy d.canvas) :=
        runAction_does _ (fun p hp => PointTable.checked_of_check (hp ▸ hcheck)) d.canvas
      refine bind_eq_ok.mpr ⟨_, hdoes, ?_⟩
      rcases hrun : action.run d.settings.degeneracy d.canvas with ⟨e | x, c⟩
      · rw [process, hcheck]
        dsimp only
        rw [hrun]
        rfl
      · have hi : process i d = (.ok x, { d.add x with canvas := c }) := by
          rw [process, hcheck]
          dsimp only
          rw [hrun]
        -- the names are checked to be new before any point is added
        obtain ⟨-, -, hfresh, htargets⟩ := process_targets hi
        have hnew : (d.points.names ++ x.pointNames).Nodup :=
          htargets ▸ (PointTable.fresh_eq_ok hd).mp hfresh
        rw [hi]
        exact bind_eq_ok.mpr ⟨_, indexed_add hd hnew, rfl⟩

theorem indexed_processAll (hd : d.points.names.Nodup) (is : List Instruction) :
    IndexedDraft.processAll is d.indexed = .ok ((processAll is d).map indexed) := by
  induction is generalizing d with
  | nil => rfl
  | cons i rest ih =>
      refine bind_eq_ok.mpr ⟨_, indexed_process hd i, ?_⟩
      rw [processAll]
      rcases hi : process i d with ⟨e | x, d'⟩
      · rfl
      · exact ih (process_nodup hd hi)

/-- Whatever the instructions, the settings, and the canvas with its source of initial values, a run
never faults: it ends with the draft that the instructions describe, or it is refused. Every new
name is new to the index, every position that the index tells is one of an entry, lines, circles and
relations find as many points as they read, the walk of a polygon finds its last side, an angle and
a length for every vertex, every variable has a range to draw from, and no mean is one of nothing. -/
theorem ofInstructions_never_faults (canvas : Canvas Float μ) (settings : DraftSettings Float)
    (is : List Instruction) :
    IndexedDraft.ofInstructions (S := S) canvas settings is =
      .ok ((ofInstructions canvas settings is).map indexed) := by
  let start : Draft S Float μ := { canvas, settings }
  have hstart : start.points.names.Nodup := .nil
  refine bind_eq_ok.mpr ⟨_, indexed_processAll hstart is, ?_⟩
  rw [ofInstructions]
  cases hall : processAll is start with
  | error e => rfl
  | ok d => exact bind_eq_ok.mpr ⟨_, indexed_finish (processAll_nodup hstart hall), rfl⟩

end Process

end Draft

end PlaneFigure
