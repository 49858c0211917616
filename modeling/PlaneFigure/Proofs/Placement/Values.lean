import PlaneFigure.Proofs.Draft.Solved
import PlaneFigure.Proofs.Placement.Polygon

/-!
What a placement adds, as a function of the values of the variables. The scalars that a placement
samples are read one by one from the variables that it creates; from these, all else is computed on
numbers.
-/

namespace PlaneFigure

variable {R α β α' β' : Type}

section Reads

variable [Mirror R α β] [Mirror R α' β'] {ρ : Nat → R} {w : World R} {k n m : Nat}

/-- The world is what a canvas with `k` variables records, with a single assignment left. -/
structure Canvas.AssignedIn (ρ : Nat → R) (w : World R) (k : Nat) (c : Canvas R (Graph R)) : Prop where
  graph : w.graph = c.memory
  assignments : w.assignments = {ρ}
  size : c.vars.size = k

namespace Canvas.Attempt

/-- Steps that come to their end on a canvas with `k` variables and create `n` more. When variable
`i` has the value `ρ i`, their result stands for `x`. -/
def Reads (ρ : Nat → R) (w : World R) (k n : Nat) (act : Canvas.Attempt R (Graph R) α) (x : β) :
    Prop :=
  ∀ c : Canvas R (Graph R), c.AssignedIn ρ w k → ∃ (a : α) (c' : Canvas R (Graph R)) (w' : World R),
    act.run c = (.ok a, c') ∧ w ≤ w' ∧ c'.AssignedIn ρ w' (k + n) ∧ Stands w' a x

namespace Reads

theorem pure {a : α} {x : β} [h : Stands w a x] :
    Reads ρ w k 0 (Pure.pure a : Canvas.Attempt R (Graph R) α) x :=
  fun c hc => ⟨a, c, w, rfl, le_refl w, hc, h⟩

theorem bind {act : Canvas.Attempt R (Graph R) α} {next : α → Canvas.Attempt R (Graph R) α'}
    {x : β} {y : β'} (h : Reads ρ w k n act x)
    (hnext : ∀ {w' : World R} {a : α} [Later w w'] [Stands w' a x],
      Reads ρ w' (k + n) m (next a) y) : Reads ρ w k (n + m) (act >>= next) y := by
  intro c hc
  obtain ⟨a, c₁, w₁, hrun, hle, hc₁, ha⟩ := h c hc
  have : Later w w₁ := ⟨hle⟩
  obtain ⟨b, c₂, w₂, hrun', hle', hc₂, hb⟩ := @hnext w₁ a _ _ c₁ hc₁
  refine ⟨b, c₂, w₂, (run_bind hrun).trans hrun', hle.trans hle', ?_, hb⟩
  rw [← Nat.add_assoc]
  exact hc₂

/-- Work on the memory alone is done on numbers too. -/
theorem lift {act : StateM (Graph R) α} (num : StateM Unit β)
    (h : ∀ {A}, Simulates (OnGraph A) w act num) :
    Reads ρ w k 0 (liftM act : Canvas.Attempt R (Graph R) α) (calculate num) := by
  rintro c ⟨hgraph, hassignments, hsize⟩
  obtain ⟨w', hle, ⟨hgraph', hassignments', -⟩, hstands⟩ :=
    h (A := w.basis) c.memory () ⟨hgraph, rfl, congrArg Graph.leaves hgraph.symm⟩
  exact ⟨_, _, w', run_lift act c, hle, ⟨hgraph', hassignments'.trans hassignments, hsize⟩, hstands⟩

/-- One variable for each element of a list. -/
theorem mapM {γ : Type} {f : γ → Canvas.Attempt R (Graph R) α} {x : Nat → β}
    (hf : ∀ a k {w' : World R} [Later w w'], Reads ρ w' k 1 (f a) (x k)) (l : List γ) (k : Nat) :
    Reads ρ w k l.length (l.mapM f) ((List.range' k l.length).map x) := by
  suffices h : ∀ w₁ k, w ≤ w₁ →
      Reads ρ w₁ k l.length (l.mapM f) ((List.range' k l.length).map x) from h w k (le_refl w)
  induction l with
  | nil =>
      intro w₁ k _
      rw [List.mapM_nil]
      exact .pure (h := ⟨.nil⟩)
  | cons a l ih =>
      intro w₁ k hle
      have : Later w w₁ := ⟨hle⟩
      rw [List.mapM_cons, List.length_cons, List.range'_succ, List.map_cons, Nat.add_comm l.length]
      refine .bind (hf a k) fun {w₂ _ hw₂ _} => ?_
      refine .bind (m := 0) (ih w₂ (k + 1) (hle.trans hw₂.le)) ?_
      intros
      exact .pure

/-- Elements that are numbered from one on read the variables after variable `k`. -/
theorem mapM_range' {f : Nat → Canvas.Attempt R (Graph R) α} {x : Nat → β}
    (hf : ∀ i k {w' : World R} [Later w w'], Reads ρ w' k 1 (f i) (x k)) :
    Reads ρ w (k + 1) n ((List.range' 1 n).mapM f) ((List.range' 1 n).map fun i => x (k + i)) := by
  have h := mapM hf (List.range' 1 n) (k + 1)
  rw [List.length_range', ← List.map_add_range', List.map_map] at h
  exact h

variable [Number R] [Uniform R]

/-- A variable has the value that the assignment gives it. -/
theorem sample {name : String} {r : Range R} (hr : r.Sound) :
    Reads ρ w k 1 (Canvas.sample name r : Canvas.Attempt R (Graph R) (Formula R)) (ρ k) := by
  rintro c ⟨hgraph, hassignments, rfl⟩
  let pushed := Graph.push (.var c.vars.size) w.graph
  have hgrown : Graph.Grown w.graph pushed.1 pushed.2 :=
    Graph.push_grown w.wellFormed (by simp [Node.children])
  let w' : World R := ⟨pushed.2, hgrown.wellFormed, w.assignments⟩
  have hle : w ≤ w' := ⟨hgrown.le, subset_rfl⟩
  have hvalue : ∀ ρ' ∈ w'.assignments, ρ' c.vars.size = ρ c.vars.size := by
    intro ρ' hρ'
    have hρ' : ρ' ∈ w.assignments := hρ'
    rw [hassignments] at hρ'
    rw [Set.mem_singleton_iff.mp hρ']
  refine ⟨_, _, w', Canvas.sample_run name hr c, hle, ⟨?_, hassignments, ?_⟩, ?_⟩
  · exact congrArg (fun g => (Graph.push (.var c.vars.size) g).2) hgraph
  · exact Array.size_push _
  · have hstands := ScalarMirror.free (β := R) c.vars.size _ hle rfl hvalue
    rw [hgraph] at hstands
    exact hstands

end Reads

end Canvas.Attempt

end Reads

section Instances

variable [Mirror R α β] {w : World R} {s : Placement.PolygonShape α} {t : Placement.PolygonShape β}

instance [h : Stands w s t] : Stands w s.firstAngle t.firstAngle := h.out.1

instance [h : Stands w s t] : Stands w s.angles t.angles := h.out.2.1

instance [h : Stands w s t] : Stands w s.scales t.scales := h.out.2.2

instance [h : Stands w s t] : Stands w s.turns t.turns :=
  inferInstanceAs (Stands w (s.angles.zipWith Placement.Turn.mk s.scales)
    (t.angles.zipWith Placement.Turn.mk t.scales))

end Instances

section Parts

namespace Placement

variable {S μ : Type} [Number R] [Scalar S R μ]

/-- The angle at a vertex of `n`, from its variable. -/
def angleFrom (n : Nat) (z : S) : StateM μ S := do
  Scalar.addConst (← Scalar.mulConst (← Scalar.tanh (← Scalar.mulConst z 0.2)) (spread n))
    (interior n)

/-- The deviation of the length of a side, from its variable. -/
def scaleFrom (z : S) : StateM μ S := do
  Scalar.mulConst (← Scalar.tanh (← Scalar.mulConst z 0.2)) 0.5

/-- The height of an apex over the middle part of the plane, from its variable. -/
def heightFrom (acute : Bool) (z : S) : StateM μ S := do
  Scalar.addConst (← Scalar.mulConst (← Scalar.sigmoid z) 3.0) (apexFloor acute)

/-- The height at which an apex that is shifted by `x` is on the circle over the base. -/
def heightOver (x : S) : StateM μ S := do
  Scalar.sqrt (← Scalar.sub (← Scalar.const 4.0) (← Scalar.sq x))

/-- The names of a triangle with their points: the apex at the corner. -/
def cornered (corner : Corner) (a b c : String) (left right top : S) : List (String × S) :=
  match corner with
  | .first => [(a, top), (b, left), (c, right)]
  | .second => [(a, left), (b, top), (c, right)]
  | .third => [(a, right), (b, left), (c, top)]

theorem placeTriangle_eq [Uniform R] (shape : TriangleShape) (corner : Corner) (a b c : String) :
    (placeTriangle shape corner a b c : Canvas.Attempt R μ (Addition S R)) = do
      let left ← (gaugeStart : StateM μ (Point S))
      let right ← (gaugeEnd : StateM μ (Point S))
      let top ← apex shape
      return { points := cornered corner a b c left right top } := by
  cases corner <;> rfl

end Placement

instance [Mirror R α β] {w : World R} {corner : Corner} {a b c : String} {p q r : α} {p' q' r' : β}
    [Stands w p p'] [Stands w q q'] [Stands w r r'] :
    Stands w (Placement.cornered corner a b c p q r) (Placement.cornered corner a b c p' q' r') := by
  unfold Placement.cornered
  cases corner <;> infer_instance

namespace Simulates

variable {β : Type} [Number R] [Mirror R (Formula R) β] [Scalar β R Unit] [ScalarMirror R β]
  {A : Basis R} {w : World R} {z : Formula R} {x : β}

theorem angleFrom {n : Nat} [Stands w z x] :
    Simulates (OnGraph A) w (Placement.angleFrom n z) (Placement.angleFrom n x) :=
  .bind .binaryConst <| .bind .unary <| .bind .binaryConst .binaryConst

theorem scaleFrom [Stands w z x] :
    Simulates (OnGraph A) w (Placement.scaleFrom z) (Placement.scaleFrom x) :=
  .bind .binaryConst <| .bind .unary .binaryConst

theorem heightFrom {acute : Bool} [Stands w z x] :
    Simulates (OnGraph A) w (Placement.heightFrom acute z) (Placement.heightFrom acute x) :=
  .bind .unary <| .bind .binaryConst .binaryConst

theorem heightOver [Stands w z x] :
    Simulates (OnGraph A) w (Placement.heightOver z) (Placement.heightOver x) :=
  .bind .const <| .bind .binary <| .bind .binary .unary

theorem polygonOf [Simplifies β w] {names : List String}
    {s : Placement.PolygonShape (Formula R)} {t : Placement.PolygonShape β} [Stands w s t] :
    Simulates (OnGraph A) w (Placement.polygonOf names s) (Placement.polygonOf names t) :=
  .bind .point_const <| .bind .point_const <| .bind .walk <| .bind .closingLosses .pure

end Simulates

end Parts

namespace Placement

open Canvas.Attempt (Reads)

variable [Number R] {ρ : Nat → R} {w : World R} {k : Nat}

/-- What is sampled for a polygon with `n` vertices, from the variables that follow `k` others. -/
def shapeFrom (n k : Nat) (ρ : Nat → R) : PolygonShape R where
  firstAngle := calculate (angleFrom n (ρ k))
  angles := (List.range' 1 (n - 1)).map fun i => calculate (angleFrom n (ρ (k + i)))
  scales := (List.range' 1 (n - 1)).map fun i => calculate (scaleFrom (ρ (k + n + i)))

/-- How many variables the shift of an apex has. -/
def shiftCount (shape : TriangleShape) : Nat := if shape.iso.isSome || shape.equi then 0 else 1

/-- How many variables the height of an apex has. -/
def heightCount (shape : TriangleShape) : Nat :=
  if shape.right.isSome then 0 else if shape.equi then 0 else 1

def shiftFrom (shape : TriangleShape) (x : R) : R :=
  if shape.iso.isSome || shape.equi then 0.0 else x

/-- The height of an apex that is shifted by `x`; its own variable has the value `z`, if there is
one. -/
def altitudeFrom (shape : TriangleShape) (x z : R) : R :=
  if shape.right.isSome then calculate (heightOver x)
  else if shape.equi then 2.0 * Number.sqrt 3.0
  else calculate (heightFrom shape.acute z)

/-- The apex of a triangle, from the variables that follow `k` others. -/
def apexFrom (shape : TriangleShape) (k : Nat) (ρ : Nat → R) : Point R :=
  ⟨shiftFrom shape (ρ k), altitudeFrom shape (shiftFrom shape (ρ k)) (ρ (k + shiftCount shape))⟩

variable [Uniform R] [Range.AllSound R]

theorem sampledAngle_reads {n i : Nat} :
    Reads ρ w k 1 (sampledAngle n i : Canvas.Attempt R (Graph R) (Formula R))
      (calculate (angleFrom n (ρ k))) :=
  .bind (.sample Range.AllSound.half) <| .lift _ .angleFrom

theorem sampledScale_reads {i : Nat} :
    Reads ρ w k 1 (sampledScale i : Canvas.Attempt R (Graph R) (Formula R))
      (calculate (scaleFrom (ρ k))) :=
  .bind (.sample Range.AllSound.unit) <| .lift _ .scaleFrom

theorem sampledShape_reads {m : Nat} :
    Reads ρ w k (1 + (m + (1 + (m + 0))))
      (sampledShape (m + 1) : Canvas.Attempt R (Graph R) (PolygonShape (Formula R)))
      (shapeFrom (m + 1) k ρ) := by
  have hshape : shapeFrom (m + 1) k ρ = ⟨calculate (angleFrom (m + 1) (ρ k)),
      (List.range' 1 m).map fun i => calculate (angleFrom (m + 1) (ρ (k + i))),
      (List.range' 1 m).map fun i => calculate (scaleFrom (ρ (k + 1 + m + i)))⟩ := by
    rw [Nat.add_right_comm k 1 m]
    rfl
  rw [hshape]
  exact .bind sampledAngle_reads <| .bind (.mapM_range' fun _ _ => sampledAngle_reads) <|
    .bind sampledScale_reads <| .bind (.mapM_range' fun _ _ => sampledScale_reads) .pure

theorem placePolygon_reads [w.Symmetric] {names : List String} (hnames : names ≠ []) :
    ∃ n, Reads ρ w k n (placePolygon names : Canvas.Attempt R (Graph R) (Addition (Formula R) R))
      (calculate (polygonOf names (shapeFrom names.length k ρ))) := by
  obtain ⟨m, hm⟩ := Nat.exists_eq_succ_of_ne_zero (mt List.length_eq_zero_iff.mp hnames)
  rw [placePolygon_eq, hm]
  exact ⟨_, .bind sampledShape_reads <| .lift _ .polygonOf⟩

theorem apexShift_reads {shape : TriangleShape} :
    Reads ρ w k (shiftCount shape) (apexShift shape : Canvas.Attempt R (Graph R) (Formula R))
      (shiftFrom shape (ρ k)) := by
  unfold apexShift shiftFrom shiftCount
  split
  · exact .lift (Scalar.const 0.0) .const
  · exact .sample Range.AllSound.apex

theorem apexHeight_reads {shape : TriangleShape} {z : Formula R} {x : R} [Stands w z x] :
    Reads ρ w k (heightCount shape) (apexHeight shape z) (altitudeFrom shape x (ρ k)) := by
  unfold apexHeight altitudeFrom heightCount
  split
  · exact .lift _ .heightOver
  split
  · exact .lift (Scalar.const (2.0 * Number.sqrt 3.0)) .const
  · exact .bind (n := 1) (m := 0) (.sample Range.AllSound.unit) (.lift _ .heightFrom)

theorem apex_reads {shape : TriangleShape} :
    Reads ρ w k (shiftCount shape + (heightCount shape + 0))
      (apex shape : Canvas.Attempt R (Graph R) (Point (Formula R))) (apexFrom shape k ρ) := by
  unfold apexFrom
  exact .bind apexShift_reads <| .bind (apexHeight_reads (x := shiftFrom shape (ρ k))) .pure

theorem placeTriangle_reads {shape : TriangleShape} {corner : Corner} {a b c : String} :
    Reads ρ w k (0 + (0 + (shiftCount shape + (heightCount shape + 0) + 0)))
      (placeTriangle shape corner a b c : Canvas.Attempt R (Graph R) (Addition (Formula R) R))
      ({ points := cornered corner a b c (calculate gaugeStart) (calculate gaugeEnd)
          (apexFrom shape k ρ) } : Addition R R) := by
  rw [placeTriangle_eq]
  exact .bind (.lift (gaugeStart : StateM Unit (Point R)) .point_const) <|
    .bind (.lift (gaugeEnd : StateM Unit (Point R)) .point_const) <| .bind apex_reads .pure

/-- What a placement adds on a canvas with `k` variables has these values when variable `i` has the
value `ρ i`: formulas at any time, numbers if that is its initial value. -/
structure Places (p : Placement) (k : Nat) (ρ : Nat → R) (y : Addition R R) : Prop where
  formulas (c : Canvas R (Graph R)) (hc : c.memory.WellFormed) (hk : c.vars.size = k) :
    ∃ x c', p.place.run c = (.ok x, c') ∧ x.map (c'.memory.value ρ) = y
  numbers (c : Canvas R Unit) (hk : c.vars.size = k) :
    ∃ x c', p.place.run c = (.ok x, c') ∧ (ρ ∈ c'.admitted → x = y)

omit [Range.AllSound R] in
/-- Numbers go along with the formulas of a draft that has the same variables. -/
theorem Places.of_formulas (hR : TrigSymmetry R) {p : Placement} {y : Addition R R}
    (h : ∀ c : Canvas R (Graph R), c.memory.WellFormed → c.vars.size = k →
      ∃ x c', p.place.run c = (.ok x, c') ∧ x.map (c'.memory.value ρ) = y) : p.Places k ρ y := by
  refine ⟨h, fun c hk => ?_⟩
  let d : Canvas R (Graph R) := { memory := Graph.empty, vars := c.vars, draws := c.draws }
  obtain ⟨x, d', hd, hx⟩ := h d Graph.empty_wellFormed hk
  have : World.Symmetric ⟨d.memory, Graph.empty_wellFormed, d.admitted ∩ Set.univ⟩ := ⟨fun _ => hR⟩
  obtain ⟨w', -, hcanvas, hstands⟩ :=
    Attempts.place (p := p) (β := R) d c (.start Set.univ d Graph.empty_wellFormed)
  rw [hd] at hcanvas hstands
  obtain ⟨_, hy, -⟩ | ⟨_, z, hy, hz, hxz⟩ := hstands.except_cases <;> cases hy
  refine ⟨z, (p.place.run c).2, Prod.ext hz rfl, fun hρ => ?_⟩
  have hρ' : ρ ∈ w'.assignments := by
    rw [hcanvas.assignments, Canvas.admitted, hcanvas.vars]
    exact ⟨hρ, trivial⟩
  rw [← hxz.addition_eq hρ', hcanvas.graph, hx]

omit [Range.AllSound R] in
theorem Places.of_reads (hR : TrigSymmetry R) {p : Placement} {y : Addition R R}
    (h : ∀ w : World R, w.Symmetric → ∃ n, Reads ρ w k n
      (p.place : Canvas.Attempt R (Graph R) (Addition (Formula R) R)) y) : p.Places k ρ y := by
  refine .of_formulas hR fun c hc hk => ?_
  obtain ⟨n, hreads⟩ := h ⟨c.memory, hc, {ρ}⟩ ⟨fun _ => hR⟩
  obtain ⟨x, c', w', hrun, -, ⟨hgraph, hassignments, -⟩, hx⟩ := hreads c ⟨rfl, rfl, hk⟩
  have hρ : ρ ∈ w'.assignments := hassignments ▸ rfl
  exact ⟨x, c', hrun, hgraph ▸ hx.addition_eq hρ⟩

theorem places_polygon (hR : TrigSymmetry R) {names : List String} (hnames : names ≠ []) :
    (polygon names).Places k ρ (calculate (polygonOf names (shapeFrom names.length k ρ))) :=
  .of_reads hR fun _ _ => placePolygon_reads hnames

theorem places_triangle (hR : TrigSymmetry R) {shape : TriangleShape} {corner : Corner}
    {a b c : String} :
    (triangle shape corner a b c).Places k ρ
      { points := cornered corner a b c (calculate gaugeStart) (calculate gaugeEnd)
          (apexFrom shape k ρ) } :=
  .of_reads hR fun _ _ => ⟨_, placeTriangle_reads⟩

end Placement

/-! ### Exact arithmetic -/

open Exact

theorem Exact.trigSymmetry : TrigSymmetry Exact where
  neg_neg x := by
    cases x with
    | undefined => rfl
    | real x => exact congrArg real (neg_neg x)
  sin_neg x := by
    cases x with
    | undefined => rfl
    | real x => exact congrArg real (Real.sin_neg x)
  cos_neg x := by
    cases x with
    | undefined => rfl
    | real x => exact congrArg real (Real.cos_neg x)

namespace Placement

theorem calculate_gaugeStart :
    calculate (gaugeStart : StateM Unit (Point Exact)) = Point.exact ⟨-2, 0⟩ := by
  change (⟨-2.0, 0.0⟩ : Point Exact) = _
  rw [literal_two, literal_zero]
  rfl

theorem calculate_gaugeEnd :
    calculate (gaugeEnd : StateM Unit (Point Exact)) = Point.exact ⟨2, 0⟩ := by
  change (⟨2.0, 0.0⟩ : Point Exact) = _
  rw [literal_two, literal_zero]
  rfl

end Placement

end PlaneFigure
