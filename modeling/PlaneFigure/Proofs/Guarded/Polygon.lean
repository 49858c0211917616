import PlaneFigure.Proofs.Guarded.Basic

/-!
Polygons by positions: the walk takes the last two vertices, the angle and the length of every side
from lists that must reach as far, and so do the losses that close it.
-/

namespace PlaneFigure.Guarded

open PlaneFigure.Placement

variable {S R μ : Type} [Number R] [Scalar S R μ]

/-- The vertices before number `i`, followed by that vertex. -/
def extend (angles scales : List S) (ps : List (Point S)) (i : Nat) :
    Guarded μ (List (Point S)) := do
  let a ← entry ps (i - 2)
  let b ← entry ps (i - 1)
  let angle ← entry angles (i - 1)
  let scale ← entry scales (i - 1)
  return ps ++ [← (nextVertex a b ⟨angle, scale⟩ : StateM μ (Point S))]

/-- A polygon with sampled angles and lengths, of which there are as many as there are names. -/
def walkPolygon (names : List String) (angles scales : List S) : Guarded μ (Addition S R) := do
  let n := names.length
  let a ← (gaugeStart : StateM μ (Point S))
  let b ← (gaugeEnd : StateM μ (Point S))
  let ps ← (List.range' 2 (n - 1)).foldlM (extend angles scales) [a, b]
  let a ← entry ps 0
  let b ← entry ps 1
  let w : Walk S := ⟨ps, ← entry ps (n - 1), ← entry ps n⟩
  let first ← entry angles 0
  return { points := names.zip (ps.take n)
           losses := ← (closingLosses n first (angles.drop 1) a b w : StateM μ _) }

/-- A polygon through the names. -/
def placePolygon [Uniform R] (names : List String) : Attempt R μ (Addition S R) := do
  let vertices := List.range names.length
  let angles ← vertices.mapM fun i => ofAttempt (sampledAngle names.length i)
  let scales ← vertices.mapM fun i => ofAttempt (sampledScale i)
  (walkPolygon names angles scales : Guarded μ (Addition S R))

theorem zip_take_length {α β : Type} (l : List α) (m : List β) :
    l.zip (m.take l.length) = l.zip m := by
  have htake : (l.zip m).take l.length = (l.take l.length).zip (m.take l.length) := by
    rw [List.zip_eq_zipWith, List.take_zipWith, List.zip_eq_zipWith]
  rw [List.take_length] at htake
  exact htake.symm.trans (List.take_of_length_le (List.length_zip ▸ Nat.min_le_left ..))

/-- From any side of the polygon on, the vertices are those of the walk. -/
theorem extend_foldlM {angles scales : List S} {k m : Nat} (hangles : angles.length = m + 1 + k)
    (hscales : scales.length = m + 1 + k) (before : List (Point S))
    (hbefore : before.length = m) (a b : Point S) :
    Does ((List.range' (m + 2) k).foldlM (extend angles scales) (before ++ [a, b]))
      ((fun w => before ++ w.vertices) <$>
        (walk a b ((angles.drop (m + 1)).zipWith Turn.mk (scales.drop (m + 1))) :
          StateM μ (Walk S))) := by
  induction k generalizing m before a b with
  | zero =>
      rw [List.drop_eq_nil_of_le (Nat.le_of_eq hangles)]
      exact Does.pure _
  | succ k ih =>
      have hangle : m + 1 < angles.length := by omega
      have hscale : m + 1 < scales.length := by omega
      have ha : (before ++ [a, b])[m + 2 - 2]? = some a := by simp [← hbefore]
      have hb : (before ++ [a, b])[m + 2 - 1]? = some b := by simp [← hbefore]
      rw [List.drop_eq_getElem_cons hangle, List.drop_eq_getElem_cons hscale]
      -- one vertex further on, `a` is among those before the side
      have hstep : Does (extend angles scales (before ++ [a, b]) (m + 2))
          ((fun p => before ++ [a, b] ++ [p]) <$>
            (nextVertex a b ⟨angles[m + 1], scales[m + 1]⟩ : StateM μ (Point S))) :=
        .granted (entry_eq_ok ha) <| .granted (entry_eq_ok hb) <|
          .granted (entry_eq_ok (List.getElem?_eq_getElem hangle)) <|
          .granted (entry_eq_ok (List.getElem?_eq_getElem hscale)) fun _ => rfl
      rw [List.range'_succ, List.foldlM_cons]
      have hrest : ∀ p, Does
          ((List.range' (m + 2 + 1) k).foldlM (extend angles scales) (before ++ [a, b] ++ [p]))
          ((fun w => before ++ a :: w.vertices) <$>
            (walk b p ((angles.drop (m + 1 + 1)).zipWith Turn.mk (scales.drop (m + 1 + 1))) :
              StateM μ (Walk S))) := by
        intro p
        have h := ih (m := m + 1) (by omega) (by omega) (before ++ [a]) (by simp [hbefore]) b p
        simpa only [List.append_assoc, List.cons_append, List.nil_append,
          Nat.add_right_comm m 1 2] using h
      change Does _ ((nextVertex a b _ : StateM μ _) >>= fun p => (before ++ a :: ·.vertices) <$>
        (walk b p _ : StateM μ (Walk S)))
      exact hstep.bind_map (P := fun _ => True) (fun _ => trivial) fun p _ => hrest p

/-- A walk after `n` turns: the side it begins with comes first among its vertices, and its last
side comes last. -/
structure Turned (a b : Point S) (n : Nat) (w : Walk S) : Prop where
  firstStart : w.vertices[0]? = some a
  firstEnd : w.vertices[1]? = some b
  lastStart : w.vertices[n]? = some w.lastStart
  lastEnd : w.vertices[n + 1]? = some w.lastEnd

theorem walk_turned (a b : Point S) (turns : List (Turn S)) (m : μ) :
    Turned a b turns.length (walk a b turns m).1 := by
  induction turns generalizing a b m with
  | nil => exact ⟨rfl, rfl, rfl, rfl⟩
  | cons t turns ih =>
      have h := ih b (nextVertex a b t m).1 (nextVertex a b t m).2
      exact ⟨rfl, h.firstStart, h.lastStart, h.lastEnd⟩

/-- With an angle and a length for every name, the walk and its losses find all they look up. -/
theorem walkPolygon_does {names : List String} (hnames : 0 < names.length) (first side : S)
    {angles scales : List S} (hangles : angles.length = names.length - 1)
    (hscales : scales.length = names.length - 1) :
    Does (walkPolygon names (first :: angles) (side :: scales)) (do
      let a ← gaugeStart
      let b ← gaugeEnd
      let w ← walk a b (angles.zipWith Turn.mk scales)
      return { points := names.zip w.vertices
               losses := ← closingLosses names.length first angles a b w } :
        StateM μ (Addition S R)) := by
  let n := names.length
  have hn : n - 1 + 1 = n := Nat.sub_add_cancel hnames
  have hturns : (angles.zipWith Turn.mk scales).length = n - 1 := by
    rw [List.length_zipWith, hangles, hscales, Nat.min_self]
  refine (Does.total gaugeStart).bind fun a => (Does.total gaugeEnd).bind fun b => ?_
  have hwalk : Does
      ((List.range' 2 (n - 1)).foldlM (extend (first :: angles) (side :: scales)) [a, b])
      (Walk.vertices <$> (walk a b (angles.zipWith Turn.mk scales) : StateM μ (Walk S))) :=
    extend_foldlM (m := 0) (by simp [hangles]; omega) (by simp [hscales]; omega) [] rfl a b
  refine hwalk.bind_map (walk_turned a b _) fun w hw => ?_
  rw [hturns] at hw
  refine .granted (entry_eq_ok hw.firstStart) <| .granted (entry_eq_ok hw.firstEnd) <|
    .granted (entry_eq_ok hw.lastStart) <|
    .granted (entry_eq_ok (hn ▸ hw.lastEnd)) <| .granted (entry_eq_ok rfl) ?_
  -- the last vertex, which should be the first one, has no name
  rw [zip_take_length]
  exact (Does.total _).bind fun losses => Does.pure _

variable {μ : Type} [Scalar S Float μ]

/-- A polygon with at least one name is placed without a fault. -/
theorem placePolygon_does {names : List String} (hnames : 0 < names.length) :
    (placePolygon names : Attempt Float μ (Addition S Float)).run.Does
      (Placement.placePolygon names).run := by
  unfold placePolygon
  simp only [range_eq_cons hnames, List.mapM_cons, bind_assoc, pure_bind]
  have hangle := fun i => Does.ofAttempt (sampledAngle_granted (S := S) (μ := μ) names.length i)
  have hscale := fun i => Does.ofAttempt (sampledScale_granted (S := S) (μ := μ) i)
  refine Does.attempt_bind_of (hangle 0) (sampledAngle_leaves _ 0) fun first _ => ?_
  refine Does.attempt_bind_of (.attempt_mapM hangle (sampledAngle_leaves _) _)
    (.mapM (sampledAngle_leaves _) _) fun angles hangles => ?_
  refine Does.attempt_bind_of (hscale 0) (sampledScale_leaves 0) fun side _ => ?_
  refine Does.attempt_bind_of (.attempt_mapM hscale sampledScale_leaves _)
    (.mapM sampledScale_leaves _) fun scales hscales => ?_
  refine .attempt_lift (walkPolygon_does hnames first side ?_ ?_)
  · rw [← hangles.length_eq, List.length_range']
  · rw [← hscales.length_eq, List.length_range']

end PlaneFigure.Guarded
