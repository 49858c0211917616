import Mathlib.Data.List.Forall2
import PlaneFigure.Proofs.Draft.Natural
import PlaneFigure.Proofs.Draft.Step
import PlaneFigure.Proofs.Placement.Granted

/-!
The outline of a draft: the names of its points, losses and variables, and the weights of the losses.
An action adds to it what can be told without knowing any scalar.
-/

namespace PlaneFigure

structure Outline (R : Type) where
  points : List String := []
  losses : List (String × R) := []
  vars : List String := []
  deriving DecidableEq, Repr

def Outline.append {R : Type} (o p : Outline R) : Outline R :=
  ⟨o.points ++ p.points, o.losses ++ p.losses, o.vars ++ p.vars⟩

def Addition.pointNames {S R : Type} (x : Addition S R) : List String := x.points.map (·.1)

def Addition.lossWeights {S R : Type} (x : Addition S R) : List (String × R) :=
  x.losses.map fun e => (e.1, e.2.weight)

section Attempts

variable {S R μ α β : Type}

def Canvas.varNames (c : Canvas R μ) : List String := c.vars.toList.map (·.name)

/-- Steps that, if they come to their end, create variables with given names and have a result with
a property. -/
def Canvas.Attempt.Leaves (names : List String) (P : α → Prop) (act : Canvas.Attempt R μ α) : Prop :=
  ∀ c a c', act.run c = (.ok a, c') → P a ∧ c'.varNames = c.varNames ++ names

namespace Canvas.Attempt.Leaves

variable {names names' : List String} {P : α → Prop} {Q : β → Prop}

theorem pure {a : α} (ha : P a) : Leaves [] P (Pure.pure a : Canvas.Attempt R μ α) := by
  rintro c _ _ ⟨⟩
  exact ⟨ha, (List.append_nil _).symm⟩

theorem bind {act : Canvas.Attempt R μ α} {next : α → Canvas.Attempt R μ β}
    (hact : Leaves names P act) (hnext : ∀ a, P a → Leaves names' Q (next a)) :
    Leaves (names ++ names') Q (act >>= next) := by
  intro c b c' h
  obtain ⟨a, c₁, ha, hb⟩ := run_bind_eq_ok h
  obtain ⟨hPa, hvars⟩ := hact c a c₁ ha
  obtain ⟨hQb, hvars'⟩ := hnext a hPa c₁ b c' hb
  exact ⟨hQb, by rw [hvars', hvars, List.append_assoc]⟩

theorem lift {act : StateM μ α} (h : ∀ m, P (act m).1) :
    Leaves [] P (liftM act : Canvas.Attempt R μ α) := by
  rintro c _ _ ⟨⟩
  exact ⟨h c.memory, (List.append_nil _).symm⟩

theorem mapM {f : α → Canvas.Attempt R μ β} {names : α → List String} {P : α → β → Prop}
    (hf : ∀ a, Leaves (names a) (P a) (f a)) (l : List α) :
    Leaves (l.flatMap names) (List.Forall₂ P l) (l.mapM f) := by
  induction l with
  | nil => exact pure .nil
  | cons a l ih =>
      rw [List.mapM_cons, List.flatMap_cons, ← List.append_nil (l.flatMap names)]
      exact (hf a).bind fun b hb => ih.bind fun bs hbs => pure (.cons hb hbs)

end Canvas.Attempt.Leaves

/-- A variable that is not refused is created. -/
theorem Canvas.create_of_sample [Number R] [Uniform R] [Scalar S R μ] {name : String} {r : Range R}
    {c c' : Canvas R μ} {z : S} (h : (Canvas.sample name r).run c = (.ok z, c')) :
    create name r c = (z, c') := by
  change request { name, range := r } c = _ at h
  unfold request at h
  split at h
  · cases h
  split_ifs at h
  · cases h
    rfl
  · cases h

theorem Canvas.sample_leaves [Number R] [Uniform R] [Scalar S R μ] (name : String) (r : Range R) :
    Attempt.Leaves [name] (fun _ => True) (Canvas.sample (S := S) (μ := μ) name r) := by
  intro c z c' h
  cases create_of_sample h
  exact ⟨trivial, by simp [varNames]⟩

end Attempts

/-! ### Placements -/

namespace Placement

def pointNames : Placement → List String
  | free names => names
  | polygon names => names
  | triangle _ _ a b c => [a, b, c]

/-- What is missing for a closed polygon counts little. -/
def lossWeights {R : Type} [Number R] : Placement → List (String × R)
  | polygon _ =>
    [("polygon-angle-sum", 0.1), ("polygon-first-eq-last", 0.01),
      ("polygon-first-angle-eq-sampled", 0.01)]
  | _ => []

theorem range_eq_cons {n : Nat} (h : 0 < n) : List.range n = 0 :: List.range' 1 (n - 1) := by
  rw [List.range_eq_range', ← Nat.sub_add_cancel h, List.range'_succ, Nat.add_sub_cancel]

/-- The variables of an apex: its shift, unless it is over the middle of the base, and its height,
unless the shape determines it. -/
def apexVariables (shape : TriangleShape) : List String :=
  (if shape.iso.isSome || shape.equi then [] else ["tri_x"]) ++
    if shape.right.isSome || shape.equi then [] else ["tri"]

def varNames : Placement → List String
  | free names => names.flatMap fun name => [name ++ "x", name ++ "y"]
  | polygon names =>
    let vertices := 0 :: List.range' 1 (names.length - 1)
    vertices.map (fun i => "polygon_angle_z_" ++ toString i) ++
      vertices.map fun i => "polygon_scale_z_" ++ toString i
  | triangle shape _ _ _ _ => apexVariables shape

def outline {R : Type} [Number R] (p : Placement) : Outline R :=
  ⟨p.pointNames, p.lossWeights, p.varNames⟩

variable {S R μ : Type} [Number R] [Scalar S R μ]

theorem walk_vertices_length (a b : Point S) (turns : List (Turn S)) (m : μ) :
    (walk a b turns m).1.vertices.length = turns.length + 2 := by
  induction turns generalizing a b m with
  | nil => rfl
  | cons t turns ih =>
      simp only [walk, bind, StateT.bind]
      exact congrArg (· + 1) (ih ..)

variable [Uniform R]

open Canvas.Attempt (Leaves)

theorem freePoint_leaves (name : String) :
    Leaves [name ++ "x", name ++ "y"] (fun _ => True)
      (freePoint name : Canvas.Attempt R μ (Point S)) :=
  (Canvas.sample_leaves _ _).bind fun _ _ => (Canvas.sample_leaves _ _).bind fun _ _ => .pure trivial

theorem sampledAngle_leaves (n i : Nat) :
    Leaves ["polygon_angle_z_" ++ toString i] (fun _ => True)
      (sampledAngle n i : Canvas.Attempt R μ S) :=
  (Canvas.sample_leaves _ _).bind fun _ _ => .lift fun _ => trivial

theorem sampledScale_leaves (i : Nat) :
    Leaves ["polygon_scale_z_" ++ toString i] (fun _ => True)
      (sampledScale i : Canvas.Attempt R μ S) :=
  (Canvas.sample_leaves _ _).bind fun _ _ => .lift fun _ => trivial

/-- What a placement adds has the names that the placement tells. -/
def Named (p : Placement) (x : Addition S R) : Prop :=
  x.pointNames = p.pointNames ∧ x.lossWeights = p.lossWeights

theorem freePoints_leaves (names : List String) :
    Leaves (free names).varNames (free names).Named
      (freePoints names : Canvas.Attempt R μ (Addition S R)) := by
  have hpoint : ∀ name, Leaves [name ++ "x", name ++ "y"] (fun e => e.1 = name)
      (do return (name, ← freePoint name) : Canvas.Attempt R μ (String × Point S)) :=
    fun name => (freePoint_leaves name).bind fun _ _ => .pure rfl
  rw [varNames, ← List.append_nil (names.flatMap _)]
  refine (Leaves.mapM hpoint names).bind fun points hpoints => .pure ⟨?_, rfl⟩
  induction hpoints with
  | nil => rfl
  | cons h _ ih => exact congrArg₂ List.cons h ih

theorem placePolygon_leaves (names : List String) :
    Leaves (polygon names).varNames (polygon names).Named
      (placePolygon names : Canvas.Attempt R μ (Addition S R)) := by
  let others := List.range' 1 (names.length - 1)
  have hvars : (polygon names).varNames =
      ["polygon_angle_z_" ++ toString 0] ++
        (others.flatMap (fun i => ["polygon_angle_z_" ++ toString i]) ++
        (["polygon_scale_z_" ++ toString 0] ++
          (others.flatMap (fun i => ["polygon_scale_z_" ++ toString i]) ++ []))) := by
    rw [← List.map_eq_flatMap, ← List.map_eq_flatMap, List.append_nil]
    rfl
  rw [hvars]
  refine (sampledAngle_leaves _ _).bind fun first _ =>
    (Leaves.mapM (sampledAngle_leaves _) others).bind fun angles hangles =>
    (sampledScale_leaves 0).bind fun _ _ =>
    (Leaves.mapM sampledScale_leaves others).bind fun scales hscales => .lift fun m => ⟨?_, rfl⟩
  -- there is a vertex for every name
  have hlength : names.length ≤ (angles.zipWith Turn.mk scales).length + 2 := by
    rw [List.length_zipWith, ← hangles.length_eq, ← hscales.length_eq, List.length_range']
    omega
  have hwalk := fun a b => walk_vertices_length (S := S) a b (angles.zipWith Turn.mk scales)
  exact List.map_fst_zip (hwalk _ _ _ ▸ hlength)

theorem apexShift_leaves (shape : TriangleShape) :
    Leaves (if shape.iso.isSome || shape.equi then [] else ["tri_x"]) (fun _ => True)
      (apexShift shape : Canvas.Attempt R μ S) := by
  unfold apexShift
  split
  · exact .lift fun _ => trivial
  · exact Canvas.sample_leaves _ _

theorem apexHeight_leaves (shape : TriangleShape) (x : S) :
    Leaves (if shape.right.isSome || shape.equi then [] else ["tri"]) (fun _ => True)
      (apexHeight (R := R) (μ := μ) shape x) := by
  unfold apexHeight
  cases shape.right.isSome <;> cases shape.equi
  · exact (Canvas.sample_leaves _ _).bind fun _ _ => .lift fun _ => trivial
  all_goals exact .lift fun _ => trivial

theorem apex_leaves (shape : TriangleShape) :
    Leaves (apexVariables shape) (fun _ => True)
      (apex shape : Canvas.Attempt R μ (Point S)) := by
  rw [← List.append_nil (apexVariables shape), apexVariables, List.append_assoc]
  exact (apexShift_leaves shape).bind fun x _ => (apexHeight_leaves shape x).bind fun _ _ =>
    .pure trivial

theorem placeTriangle_leaves (shape : TriangleShape) (corner : Corner) (a b c : String) :
    Leaves (triangle shape corner a b c).varNames (triangle shape corner a b c).Named
      (placeTriangle shape corner a b c : Canvas.Attempt R μ (Addition S R)) := by
  have hgauge : ∀ act : StateM μ (Point S),
      Leaves [] (fun _ => True) (liftM act : Canvas.Attempt R μ (Point S)) :=
    fun _ => .lift fun _ => trivial
  change Leaves ([] ++ ([] ++ apexVariables shape)) _ _
  rw [← List.append_nil (apexVariables shape)]
  refine (hgauge _).bind fun left _ => (hgauge _).bind fun right _ =>
    (apex_leaves shape).bind fun top _ => .pure ?_
  cases corner <;> exact ⟨rfl, rfl⟩

theorem place_leaves (p : Placement) :
    Leaves p.varNames p.Named (p.place : Canvas.Attempt R μ (Addition S R)) := by
  cases p with
  | free names => exact freePoints_leaves names
  | polygon names => exact placePolygon_leaves names
  | triangle shape corner a b c => exact placeTriangle_leaves shape corner a b c

end Placement

/-! ### Actions -/

section Actions

variable {S T R μ : Type} [Number R]

/-- Only what lies between has more than one residual. -/
def Relation.lossWeights (label : String) : Relation S → List (String × R)
  | between _ _ _ =>
    [(label ++ "_" ++ toString 0, 1.0 / Number.ofNat 2),
      (label ++ "_" ++ toString 1, 1.0 / Number.ofNat 2)]
  | _ => [(label, 1.0)]

theorem Relation.lossWeights_losses [Scalar S R μ] (label : String) (r : Relation S) (m : μ) :
    (r.losses label m).1.map (fun e => (e.1, e.2.weight)) = r.lossWeights label := by
  cases r <;> rfl

theorem Relation.losses_ne_nil [Scalar S R μ] (label : String) (r : Relation S) (m : μ) :
    (r.losses label m).1 ≠ ([] : List (String × Loss S R)) := by
  cases r <;> exact List.cons_ne_nil _ _

def Action.outline : Action S → Outline R
  | place p => p.outline
  | construct name _ => { points := [name] }
  | intersect name _ _ => { points := [name] }
  | relate label r => { losses := r.lossWeights label }

theorem Action.outline_map (f : S → T) (a : Action S) :
    (a.map f).outline = (a.outline : Outline R) := by
  cases a with
  | relate label r => cases r <;> rfl
  | _ => rfl

/-- An action adds what its outline tells, and creates the variables that it tells. -/
theorem Action.run_outline [Uniform R] [Scalar S R μ] {degeneracy : R} {a : Action S}
    {c c' : Canvas R μ} {x : Addition S R} (h : a.run degeneracy c = (.ok x, c')) :
    x.pointNames = (a.outline : Outline R).points ∧ x.lossWeights = a.outline.losses ∧
      c'.varNames = c.varNames ++ (a.outline : Outline R).vars := by
  obtain ⟨p, rfl, hplace⟩ | ⟨ha, hrecord, hkept⟩ := run_ok h
  · obtain ⟨⟨hpoints, hlosses⟩, hvars⟩ := p.place_leaves c x c' hplace
    exact ⟨hpoints, hlosses, hvars⟩
  · obtain rfl : (a.record c.memory).1 = x := congrArg Prod.fst hrecord
    have hnames : c'.varNames = c.varNames ++ [] := by
      rw [hkept, List.append_nil]
      rfl
    cases a with
    | place p => exact (ha p rfl).elim
    | construct name k => exact ⟨rfl, rfl, hnames⟩
    | intersect name l m => exact ⟨rfl, rfl, hnames⟩
    | relate label r => exact ⟨rfl, r.lossWeights_losses label c.memory, hnames⟩

end Actions

end PlaneFigure
