import PlaneFigure.Proofs.Draft.Index
import PlaneFigure.Proofs.Guarded.Basic

/-!
Checks with all that they take for granted: that the index tells positions of entries, and that lines
and relations find as many points as they read. The points are read one by one, those of circles
through slices of what was looked up.
-/

namespace PlaneFigure

open PlaneFigure.Geometry

variable {S α β γ : Type}

namespace Guarded

/-- Checks that may fault. -/
abbrev Checking := ExceptT DraftError (Except Fault)

/-- The check never faults, and decides what the other decides. -/
def Checking.Agrees (x : Checking α) (y : Except DraftError α) : Prop := x.run = .ok y

namespace Checking.Agrees

theorem pure (a : α) : Agrees (Pure.pure a) (Pure.pure a) := rfl

theorem fail (e : DraftError) : Agrees (throw e : Checking α) (throw e) := rfl

theorem total (y : Except DraftError α) : Agrees (liftM y) y := rfl

/-- What was taken for granted holds. -/
theorem granted {x : Except Fault α} {a : α} {next : α → Checking β} {y : Except DraftError β}
    (hx : x = .ok a) (hnext : (next a).Agrees y) : ((liftM x : Checking α) >>= next).Agrees y := by
  subst hx
  exact hnext

theorem bind {x : Checking α} {y : Except DraftError α} {next : α → Checking β}
    {next' : α → Except DraftError β} (h : x.Agrees y)
    (hnext : ∀ a, y = .ok a → (next a).Agrees (next' a)) : (x >>= next).Agrees (y >>= next') := by
  change (x.run >>= ExceptT.bindCont next) = _
  rw [h]
  cases y with
  | error e => rfl
  | ok a => exact hnext a rfl

theorem mapM {f : γ → Checking α} {f' : γ → Except DraftError α} (hf : ∀ x, (f x).Agrees (f' x))
    (l : List γ) : (l.mapM f).Agrees (l.mapM f') := by
  induction l with
  | nil => exact pure []
  | cons x l ih =>
      rw [List.mapM_cons, List.mapM_cons]
      exact (hf x).bind fun a _ => ih.bind fun as _ => pure (a :: as)

end Checking.Agrees

end Guarded

/-! ### Operands -/

namespace Geometry.LineKind

/-- The line of a kind on the points that are read, which must be as many as it depends on. -/
def read (kind : LineKind) (points : List (Point S)) : Except Fault (Line S) := do
  countOperands kind.arity points
  match kind with
  | connecting => return .connecting (← entry points 0) (← entry points 1)
  | parallel => return .parallel (← entry points 0) (← entry points 1) (← entry points 2)
  | perpendicular => return .perpendicular (← entry points 0) (← entry points 1) (← entry points 2)
  | mediator => return .mediator (← entry points 0) (← entry points 1)
  | internalBisector =>
    return .internalBisector (← entry points 0) (← entry points 1) (← entry points 2)
  | externalBisector =>
    return .externalBisector (← entry points 0) (← entry points 1) (← entry points 2)
  | atAngle =>
    return .atAngle (← entry points 0) (← entry points 1) (← entry points 2) (← entry points 3)
      (← entry points 4)

theorem read_of_arity {kind : LineKind} {points : List (Point S)}
    (h : points.length = kind.arity) :
    ∃ l, kind.read points = .ok l ∧ kind.line? points = some l := by
  cases kind <;> rcases points with _ | ⟨a, _ | ⟨b, _ | ⟨c, _ | ⟨d, _ | ⟨e, _ | _⟩⟩⟩⟩⟩ <;>
    first | exact ⟨_, rfl, rfl⟩ | cases h

end Geometry.LineKind

/-- The center of a circle and a point on it. -/
def readAround (points : List (Point S)) : Except Fault (Point S × Point S) := do
  countOperands 2 points
  return (← entry points 0, ← entry points 1)

/-- Three points of a circle. -/
def readThrough (points : List (Point S)) : Except Fault (Point S × Point S × Point S) := do
  countOperands 3 points
  return (← entry points 0, ← entry points 1, ← entry points 2)

namespace RelationKind

/-- The relation of a kind between the points that are read. -/
def read (points : List (Point S)) : RelationKind → Except Fault (Relation S)
  | perp =>
    return .perp (← entry points 0) (← entry points 1) (← entry points 2) (← entry points 3)
  | para =>
    return .para (← entry points 0) (← entry points 1) (← entry points 2) (← entry points 3)
  | cong =>
    return .cong (← entry points 0) (← entry points 1) (← entry points 2) (← entry points 3)
  | midp => return .midp (← entry points 0) (← entry points 1) (← entry points 2)
  | coll => return .coll (← entry points 0) (← entry points 1) (← entry points 2)
  | between => return .between (← entry points 0) (← entry points 1) (← entry points 2)
  | onCircle => do
    let (o, a) ← readAround (← entriesFrom points 1)
    return .onCircle (← entry points 0) o a
  | concyclic => do
    let (a, b, c) ← readThrough (← entriesBefore points 3)
    return .concyclic a b c (← entry points 3)

theorem read_of_arity {kind : RelationKind} {points : List (Point S)}
    (h : points.length = kind.arity) :
    ∃ r, kind.read points = .ok r ∧ kind.relation? points = some r := by
  cases kind <;> rcases points with _ | ⟨a, _ | ⟨b, _ | ⟨c, _ | ⟨d, _ | _⟩⟩⟩⟩ <;>
    first | exact ⟨_, rfl, rfl⟩ | cases h

end RelationKind

/-! ### The index -/

namespace IndexedTable

open Guarded (Checking)

/-- The entry at the position that the index tells. -/
def find (t : IndexedTable S) (name : String) : Except Fault (Option (Point S)) :=
  match t.index[name]? with
  | none => return none
  | some i => return some (← entry t.entries.toList i).2

def fetch (t : IndexedTable S) (name : String) : Checking (Point S) := do
  match ← (liftM (t.find name) : Checking _) with
  | some p => return p
  | none => throw (.undefinedPoint name)

/-- All names must be new and different from each other. -/
def fresh (t : IndexedTable S) (names : List String) : Except DraftError Unit :=
  go [] names
where
  go (seen : List String) : List String → Except DraftError Unit
    | [] => return ()
    | name :: rest =>
      if t.contains name || seen.contains name then throw (.alreadyDefined name)
      else go (name :: seen) rest

/-- Add a point, the name of which is taken to be new. -/
def insertNew (t : IndexedTable S) (name : String) (p : Point S) : Except Fault (IndexedTable S) :=
  if t.contains name then .error (.definedTwice name) else .ok (t.insert name p)

/-! ### Instructions -/

def lineOf (t : IndexedTable S) (spec : LineSpec) : Checking (Line S) :=
  match LineKind.ofId? spec.pred with
  | none => throw (.unsupported .line spec.pred)
  | some kind =>
    if spec.points.length ≠ kind.arity then
      throw (.linePoints spec.pred kind.arity spec.points.length)
    else do
      let points ← spec.points.mapM t.fetch
      liftM (kind.read points)

def operand (t : IndexedTable S) (method : String) : Operand → Checking (Point S)
  | .point name => t.fetch name
  | .line _ => throw (.lineOperand method)

def intersection (t : IndexedTable S) (name : String) : List Operand → Checking (Action S)
  | [.line l, .line m] => return .intersect name (l, ← t.lineOf l) (m, ← t.lineOf m)
  | _ => throw .notTwoLines

def construction (t : IndexedTable S) (name : String) (kind : ConstructionKind) (c : Computation) :
    Checking (Action S) := do
  let points ← c.operands.mapM (t.operand c.method)
  match kind.construction? points with
  | some construction => return .construct name construction
  | none => throw (.operandCount c.method kind.arity points.length)

def computation (t : IndexedTable S) (name : String) (c : Computation) : Checking (Action S) := do
  let kind ← (liftM (ConstructionKind.ofId c.method) : Checking _)
  (liftM (t.fresh [name]) : Checking _)
  if kind = .intersection then t.intersection name c.operands else t.construction name kind c

def constraint (t : IndexedTable S) (c : Constraint) : Checking (Action S) :=
  if c.negate then throw (.negated c.pred)
  else do
    let kind ← (liftM (RelationKind.ofId c.pred) : Checking _)
    if c.points.length ≠ kind.arity then
      throw (.relationPoints c.pred kind.arity c.points.length)
    else
      let points ← c.points.mapM t.fetch
      let relation ← (liftM (kind.read points) : Checking _)
      return .relate (c.pred ++ "_" ++ "_".intercalate c.points) relation

/-- The action of an instruction, or the first thing that is wrong with it. -/
def check (t : IndexedTable S) : Instruction → Checking (Action S)
  | .sample points sampler args => do
    let sampler ← (liftM (Sampler.ofId sampler args) : Checking _)
    (liftM (t.fresh points) : Checking _)
    return .place (← (liftM (Placement.ofSampler sampler points) : Checking _))
  | .compute point c => t.computation point c
  | .parameterize point id => do
    let .coords ← (liftM (Parameterization.ofId id) : Checking _)
    (liftM (t.fresh [point]) : Checking _)
    return .place (.free [point])
  | .assert c => t.constraint c

namespace Represents

open Guarded.Checking (Agrees)

variable {t : IndexedTable S} {u : PointTable S}

/-- The positions that the index tells are there. -/
theorem find_eq (h : t.Represents u) (name : String) : t.find name = .ok (u.get? name) := by
  rw [← h.get?_eq, find, get?]
  cases hi : t.index[name]? with
  | none => rfl
  | some i =>
      have hposition := (h.index name i).mp hi
      rw [PointTable.names, List.getElem?_map, Option.map_eq_some_iff, ← h.entries] at hposition
      obtain ⟨e, he, -⟩ := hposition
      dsimp only
      rw [entry_eq_ok he]
      change _ = Except.ok (t.entries[i]? >>= fun e => some e.2)
      rw [← Array.getElem?_toList, he]
      rfl

theorem fetch_agrees (h : t.Represents u) (name : String) : (t.fetch name).Agrees (u.get name) := by
  unfold fetch PointTable.get
  rw [h.find_eq]
  cases u.get? name with
  | none => exact Agrees.fail _
  | some p => exact Agrees.pure p

theorem fresh_go_eq (h : t.Represents u) (seen names : List String) :
    fresh.go t seen names = PointTable.fresh.go u seen names := by
  induction names generalizing seen with
  | nil => rfl
  | cons name rest ih => rw [fresh.go, PointTable.fresh.go, h.contains_eq, ih]

theorem fresh_eq (h : t.Represents u) (names : List String) : t.fresh names = u.fresh names :=
  h.fresh_go_eq [] names

theorem lineOf_agrees (h : t.Represents u) (spec : LineSpec) :
    (t.lineOf spec).Agrees (u.line spec) := by
  unfold lineOf PointTable.line
  cases LineKind.ofId? spec.pred with
  | none => exact Agrees.fail _
  | some kind =>
      dsimp only
      split_ifs with harity
      · exact Agrees.fail _
      refine (Agrees.mapM h.fetch_agrees _).bind fun points hpoints => ?_
      have hlength := (mapM_eq_ok.mp hpoints).length_eq
      obtain ⟨l, hread, hline⟩ := LineKind.read_of_arity (hlength.symm.trans (not_not.mp harity))
      rw [hread, hline]
      exact Agrees.pure l

theorem operand_agrees (h : t.Represents u) (method : String) (o : Operand) :
    (t.operand method o).Agrees (u.operand method o) := by
  cases o with
  | point name => exact h.fetch_agrees name
  | line spec => exact Agrees.fail _

theorem intersection_agrees (h : t.Represents u) (name : String) (operands : List Operand) :
    (t.intersection name operands).Agrees (u.intersection name operands) := by
  rcases operands with _ | ⟨_ | l, _ | ⟨_ | m, _ | ⟨_, _⟩⟩⟩
  case cons.line.cons.line.nil =>
    exact (h.lineOf_agrees l).bind fun _ _ => (h.lineOf_agrees m).bind fun _ _ => Agrees.pure _
  all_goals exact Agrees.fail _

theorem construction_agrees (h : t.Represents u) (name : String) (kind : ConstructionKind)
    (c : Computation) : (t.construction name kind c).Agrees (u.construction name kind c) := by
  refine (Agrees.mapM (h.operand_agrees c.method) _).bind fun points _ => ?_
  cases kind.construction? points with
  | some construction => exact Agrees.pure _
  | none => exact Agrees.fail _

theorem computation_agrees (h : t.Represents u) (name : String) (c : Computation) :
    (t.computation name c).Agrees (u.computation name c) := by
  unfold computation PointTable.computation
  rw [h.fresh_eq]
  refine (Agrees.total _).bind fun kind _ => (Agrees.total _).bind fun _ _ => ?_
  split_ifs
  · exact h.intersection_agrees name c.operands
  · exact h.construction_agrees name kind c

theorem constraint_agrees (h : t.Represents u) (c : Constraint) :
    (t.constraint c).Agrees (u.constraint c) := by
  unfold constraint PointTable.constraint
  split_ifs
  · exact Agrees.fail _
  refine (Agrees.total _).bind fun kind _ => ?_
  split_ifs with harity
  · exact Agrees.fail _
  refine (Agrees.mapM h.fetch_agrees _).bind fun points hpoints => ?_
  have hlength := (mapM_eq_ok.mp hpoints).length_eq
  obtain ⟨r, hread, hrelation⟩ :=
    RelationKind.read_of_arity (hlength.symm.trans (not_not.mp harity))
  rw [hrelation]
  exact Agrees.granted hread (Agrees.pure _)

theorem check_agrees (h : t.Represents u) (i : Instruction) :
    (t.check i).Agrees (u.check i) := by
  cases i with
  | sample points sampler args =>
      refine (Agrees.total _).bind fun sampler _ => ?_
      rw [h.fresh_eq]
      exact (Agrees.total _).bind fun _ _ => (Agrees.total _).bind fun _ _ => Agrees.pure _
  | compute point c => exact h.computation_agrees point c
  | parameterize point id =>
      refine (Agrees.total _).bind fun _ _ => ?_
      rw [h.fresh_eq]
      exact (Agrees.total _).bind fun _ _ => Agrees.pure _
  | assert c => exact h.constraint_agrees c

/-- Points under new and different names are added one by one. -/
theorem insertNew_foldlM (h : t.Represents u) {points : List (String × Point S)}
    (hnew : (u.names ++ points.map (·.1)).Nodup) :
    points.foldlM (fun t e => t.insertNew e.1 e.2) t = .ok (t.insertAll points) := by
  induction points generalizing t u with
  | nil => rfl
  | cons e points ih =>
      obtain ⟨hname, hrest⟩ := nodup_names_cons hnew
      have hfree : ¬ t.contains e.1 = true := by
        rw [h.contains_eq, ← PointTable.mem_names_iff]
        exact hname
      rw [List.foldlM_cons, insertNew, if_neg hfree]
      exact ih (h.insert hname e.2) hrest

end Represents

end IndexedTable

end PlaneFigure
