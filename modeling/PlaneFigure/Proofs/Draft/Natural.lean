import PlaneFigure.Draft.Check
import PlaneFigure.Geometry.Circle

/-!
Checks do not look at scalars. If the scalars of all points are replaced, an instruction is refused
for the same reason, or its action is the same but for the scalars in it.
-/

namespace PlaneFigure

variable {S T U : Type} (f : S → T) (g : T → U)

def Point.map (p : Point S) : Point T := ⟨f p.x, f p.y⟩

namespace Geometry

def Line.map : Line S → Line T
  | connecting a b => .connecting (a.map f) (b.map f)
  | parallel x a b => .parallel (x.map f) (a.map f) (b.map f)
  | perpendicular x a b => .perpendicular (x.map f) (a.map f) (b.map f)
  | mediator a b => .mediator (a.map f) (b.map f)
  | internalBisector a b c => .internalBisector (a.map f) (b.map f) (c.map f)
  | externalBisector a b c => .externalBisector (a.map f) (b.map f) (c.map f)
  | atAngle b c d x y => .atAngle (b.map f) (c.map f) (d.map f) (x.map f) (y.map f)

theorem Line.map_map (l : Line S) : (l.map f).map g = l.map (g ∘ f) := by
  cases l <;> rfl

def Circle.map : Circle S → Circle T
  | through a b c => .through (a.map f) (b.map f) (c.map f)
  | around o a => .around (o.map f) (a.map f)
  | compass o x y => .compass (o.map f) (x.map f) (y.map f)
  | diameter a b => .diameter (a.map f) (b.map f)

theorem Circle.map_map (c : Circle S) : (c.map f).map g = c.map (g ∘ f) := by
  cases c <;> rfl

theorem LineKind.line?_map (kind : LineKind) (l : List (Point S)) :
    kind.line? (l.map (Point.map f)) = (kind.line? l).map (Line.map f) := by
  cases kind <;> rcases l with _ | ⟨a, _ | ⟨b, _ | ⟨c, _ | ⟨d, _ | ⟨x, _ | _⟩⟩⟩⟩⟩ <;> rfl

end Geometry

def Construction.map : Construction S → Construction T
  | midpoint a b => .midpoint (a.map f) (b.map f)
  | reflection m a => .reflection (m.map f) (a.map f)
  | circumcenter a b c => .circumcenter (a.map f) (b.map f) (c.map f)
  | orthocenter a b c => .orthocenter (a.map f) (b.map f) (c.map f)
  | centroid a b c => .centroid (a.map f) (b.map f) (c.map f)
  | incenter a b c => .incenter (a.map f) (b.map f) (c.map f)

theorem Construction.map_map (c : Construction S) : (c.map f).map g = c.map (g ∘ f) := by
  cases c <;> rfl

theorem ConstructionKind.construction?_map (kind : ConstructionKind) (l : List (Point S)) :
    kind.construction? (l.map (Point.map f)) = (kind.construction? l).map (Construction.map f) := by
  cases kind <;> rcases l with _ | ⟨a, _ | ⟨b, _ | ⟨c, _ | _⟩⟩⟩ <;> rfl

def Relation.map : Relation S → Relation T
  | perp a b c d => .perp (a.map f) (b.map f) (c.map f) (d.map f)
  | para a b c d => .para (a.map f) (b.map f) (c.map f) (d.map f)
  | cong a b c d => .cong (a.map f) (b.map f) (c.map f) (d.map f)
  | midp m a b => .midp (m.map f) (a.map f) (b.map f)
  | coll a b c => .coll (a.map f) (b.map f) (c.map f)
  | between x a b => .between (x.map f) (a.map f) (b.map f)
  | onCircle x o a => .onCircle (x.map f) (o.map f) (a.map f)
  | concyclic a b c d => .concyclic (a.map f) (b.map f) (c.map f) (d.map f)

theorem Relation.map_map (r : Relation S) : (r.map f).map g = r.map (g ∘ f) := by
  cases r <;> rfl

theorem RelationKind.relation?_map (kind : RelationKind) (l : List (Point S)) :
    kind.relation? (l.map (Point.map f)) = (kind.relation? l).map (Relation.map f) := by
  cases kind <;> rcases l with _ | ⟨a, _ | ⟨b, _ | ⟨c, _ | ⟨d, _ | _⟩⟩⟩⟩ <;> rfl

def Action.map : Action S → Action T
  | place placement => .place placement
  | construct name c => .construct name (c.map f)
  | intersect name l m => .intersect name (l.1, l.2.map f) (m.1, m.2.map f)
  | relate label r => .relate label (r.map f)

theorem Action.map_map (a : Action S) : (a.map f).map g = a.map (g ∘ f) := by
  cases a <;> simp [map, Construction.map_map, Geometry.Line.map_map, Relation.map_map]

theorem mapM_map {ε α β γ : Type} {k : α → Except ε β} {k' : α → Except ε γ} {h : β → γ}
    (hk : ∀ a, k' a = (k a).map h) (l : List α) : l.mapM k' = (l.mapM k).map (List.map h) := by
  induction l with
  | nil => rfl
  | cons a l ih =>
      rw [List.mapM_cons, List.mapM_cons, hk, ih]
      cases k a with
      | error e => rfl
      | ok b => cases l.mapM k <;> rfl

namespace PointTable

def map (t : PointTable S) : PointTable T := ⟨t.entries.map fun e => (e.1, e.2.map f)⟩

variable (t : PointTable S)

@[simp] theorem names_map : (t.map f).names = t.names := by
  simp [names, map]

@[simp] theorem contains_map (name : String) : (t.map f).contains name = t.contains name := by
  rw [contains, names_map, contains]

theorem get_map (name : String) : (t.map f).get name = (t.get name).map (Point.map f) := by
  have hlookup : (t.map f).get? name = (t.get? name).map (Point.map f) := by
    unfold get? map
    induction t.entries with
    | nil => rfl
    | cons e l ih =>
        rw [List.map_cons, List.lookup_cons, List.lookup_cons, ih]
        split <;> rfl
  unfold get
  rw [hlookup]
  cases t.get? name <;> rfl

theorem fresh_map (names : List String) : (t.map f).fresh names = t.fresh names := by
  have hgo : ∀ seen, fresh.go (t.map f) seen names = fresh.go t seen names := by
    induction names with
    | nil => exact fun _ => rfl
    | cons name rest ih =>
        intro seen
        rw [fresh.go, fresh.go, contains_map, ih]
  exact hgo []

theorem line_map (spec : LineSpec) :
    (t.map f).line spec = (t.line spec).map (Geometry.Line.map f) := by
  unfold line
  split
  · rfl
  next kind _ =>
    split
    · rfl
    rw [mapM_map (t.get_map f)]
    cases spec.points.mapM t.get with
    | error e => rfl
    | ok points =>
        simp only [Except.map, bind, Except.bind, kind.line?_map f points]
        cases kind.line? points <;> rfl

theorem operand_map (method : String) (o : Operand) :
    (t.map f).operand method o = (t.operand method o).map (Point.map f) := by
  cases o with
  | point name => exact t.get_map f name
  | line _ => rfl

theorem intersection_map (name : String) (operands : List Operand) :
    (t.map f).intersection name operands = (t.intersection name operands).map (Action.map f) := by
  unfold intersection
  split
  next l m =>
    rw [line_map, line_map]
    cases t.line l with
    | error e => rfl
    | ok l' => cases t.line m <;> rfl
  · rfl

theorem construction_map (name : String) (kind : ConstructionKind) (c : Computation) :
    (t.map f).construction name kind c = (t.construction name kind c).map (Action.map f) := by
  unfold construction
  rw [mapM_map (t.operand_map f c.method)]
  cases c.operands.mapM (t.operand c.method) with
  | error e => rfl
  | ok points =>
      simp only [Except.map, bind, Except.bind, kind.construction?_map f points, List.length_map]
      cases kind.construction? points <;> rfl

theorem computation_map (name : String) (c : Computation) :
    (t.map f).computation name c = (t.computation name c).map (Action.map f) := by
  unfold computation
  rw [fresh_map]
  cases ConstructionKind.ofId c.method with
  | error e => rfl
  | ok kind =>
      cases t.fresh [name] with
      | error e => rfl
      | ok _ =>
          simp only [bind, Except.bind, intersection_map, construction_map]
          split <;> rfl

theorem constraint_map (c : Constraint) :
    (t.map f).constraint c = (t.constraint c).map (Action.map f) := by
  unfold constraint
  split
  · rfl
  cases RelationKind.ofId c.pred with
  | error e => rfl
  | ok kind =>
      simp only [bind, Except.bind]
      split
      · rfl
      rw [mapM_map (t.get_map f)]
      cases c.points.mapM t.get with
      | error e => rfl
      | ok points =>
          simp only [Except.map, kind.relation?_map f points]
          cases kind.relation? points <;> rfl

/-- Replacing the scalars of the points changes the scalars of the action, and nothing else. -/
theorem check_map (i : Instruction) : (t.map f).check i = (t.check i).map (Action.map f) := by
  cases i with
  | sample points sampler args =>
      simp only [check, fresh_map]
      cases Sampler.ofId sampler args with
      | error e => rfl
      | ok sampler =>
          cases t.fresh points with
          | error e => rfl
          | ok _ =>
              simp only [bind, Except.bind]
              cases Placement.ofSampler sampler points <;> rfl
  | compute point c => exact t.computation_map f point c
  | parameterize point id =>
      simp only [check, fresh_map]
      cases Parameterization.ofId id with
      | error e => rfl
      | ok _ => cases t.fresh [point] <;> rfl
  | assert c => exact t.constraint_map f c

end PointTable

end PlaneFigure
