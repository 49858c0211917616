import PlaneFigure.Proofs.Draft.Lookup

/-!
What instructions are checked for, and in which order. The checks of an instruction are listed
without carrying any of it out; what becomes of the instruction is then read off the list, where the
first check that fails decides the error.
-/

namespace PlaneFigure

/-- A check, and the error of what does not pass it. -/
structure Check where
  passes : Bool
  error : DraftError

/-- A result that is decided by checks: it is no error if all of them pass, and otherwise the error
of the first that does not. -/
inductive Decides {α : Type} : List Check → Except DraftError α → Prop
  | accepted {checks : List Check} (a : α) (h : ∀ k ∈ checks, k.passes = true) :
      Decides checks (.ok a)
  | refused {before after : List Check} {k : Check} (h : ∀ j ∈ before, j.passes = true)
      (hk : k.passes = false) : Decides (before ++ k :: after) (.error k.error)

namespace Decides

variable {α β γ : Type} {l l' : List Check} {k : Check} {x : Except DraftError α}

theorem pure (a : α) : Decides [] (.ok a) := .accepted a nofun

theorem fail (hk : k.passes = false) : Decides (k :: l) (.error k.error : Except DraftError α) :=
  @refused α [] l k nofun hk

/-- A check that passes decides nothing. -/
theorem skip (hk : k.passes = true) (h : Decides l x) : Decides (k :: l) x := by
  cases h with
  | accepted a h => exact .accepted a (List.forall_mem_cons.mpr ⟨hk, h⟩)
  | refused h hk' => exact @refused _ (k :: _) _ _ (List.forall_mem_cons.mpr ⟨hk, h⟩) hk'

theorem skip_all (hl : ∀ k ∈ l, k.passes = true) (h : Decides l' x) : Decides (l ++ l') x := by
  induction l with
  | nil => exact h
  | cons k l ih =>
      obtain ⟨hk, hl⟩ := List.forall_mem_cons.mp hl
      exact skip hk (ih hl)

/-- First one thing is checked, and then another. -/
theorem bind {f : α → Except DraftError β} (hx : Decides l x)
    (hf : ∀ a, x = .ok a → Decides l' (f a)) : Decides (l ++ l') (x >>= f) := by
  cases hx with
  | accepted a h => exact skip_all h (hf a rfl)
  | refused h hk =>
      rw [List.append_assoc]
      exact .refused h hk

/-- What cannot fail is not checked. -/
theorem bind_ok {f : α → Except DraftError β} (hx : Decides l x)
    (hf : ∀ a, x = .ok a → ∃ b, f a = .ok b) : Decides l (x >>= f) := by
  cases hx with
  | accepted a h =>
      obtain ⟨b, hb⟩ := hf a rfl
      change Decides l (f a)
      rw [hb]
      exact .accepted b h
  | refused h hk => exact .refused h hk

theorem mapM {f : γ → Except DraftError α} {check : γ → Check} (h : ∀ c, Decides [check c] (f c))
    (cs : List γ) : Decides (cs.map check) (cs.mapM f) := by
  induction cs with
  | nil => exact pure []
  | cons c cs ih =>
      rw [List.mapM_cons]
      exact (h c).bind fun a _ => ih.bind_ok fun as _ => ⟨a :: as, rfl⟩

end Decides

/-! ### Names -/

section Names

variable (isDefined : String → Bool)

/-- Names of points that must be there. -/
def definedChecks (names : List String) : List Check :=
  names.map fun name => ⟨isDefined name, .undefinedPoint name⟩

/-- Names of points that must not be there, and not twice among themselves. -/
def newChecks (names : List String) : List Check :=
  names.mapIdx fun i name =>
    ⟨!(isDefined name || (names.take i).contains name), .alreadyDefined name⟩

/-- Whatever follows a new name must be different from it, too. -/
theorem newChecks_cons (name : String) (rest : List String) :
    newChecks isDefined (name :: rest) =
      ⟨!isDefined name, .alreadyDefined name⟩ ::
        newChecks (fun n => isDefined n || n == name) rest := by
  unfold newChecks
  rw [List.mapIdx_cons]
  simp only [List.take_zero, List.take_succ_cons, List.contains_nil, List.contains_cons,
    Bool.or_false, Bool.or_assoc]

end Names

namespace PointTable

variable {S : Type} (t : PointTable S)

theorem get_decides (name : String) :
    Decides [⟨t.contains name, .undefinedPoint name⟩] (t.get name) := by
  unfold get
  cases h : t.get? name with
  | none => exact .fail (get?_eq_none.mp h)
  | some p =>
      have hcontains : t.contains name = true := by
        rw [← Bool.not_eq_false, ← get?_eq_none, h]
        exact nofun
      exact .skip hcontains (.pure p)

theorem mapM_get_decides (names : List String) :
    Decides (definedChecks t.contains names) (names.mapM t.get) :=
  .mapM t.get_decides names

theorem fresh_decides (names : List String) :
    Decides (newChecks t.contains names) (t.fresh names) := by
  have hgo : ∀ seen, Decides (newChecks (fun n => t.contains n || seen.contains n) names)
      (fresh.go t seen names) := by
    induction names with
    | nil => exact fun _ => .pure ()
    | cons name rest ih =>
        intro seen
        rw [newChecks_cons, fresh.go]
        cases hname : t.contains name || seen.contains name with
        | true => exact .fail rfl
        | false =>
            have hseen : (fun n => t.contains n || (name :: seen).contains n) =
                fun n => (t.contains n || seen.contains n) || n == name := by
              funext n
              rw [List.contains_cons, Bool.or_assoc, Bool.or_comm (n == name)]
            have hrest := ih (name :: seen)
            rw [hseen] at hrest
            exact .skip rfl hrest
  have hstart := hgo []
  simp only [List.contains_nil, Bool.or_false] at hstart
  exact hstart

end PointTable

/-! ### Identifiers and numbers of points -/

/-- An identifier that must be known, and a number of points that must be the one it asks for. -/
def arityChecks (arities : List (String × Nat)) (kind : MethodKind) (id : String) (given : Nat)
    (error : Nat → DraftError) : List Check :=
  [⟨(arities.lookup id).isSome, .unsupported kind id⟩,
    ⟨arities.lookup id == some given, error ((arities.lookup id).getD 0)⟩]

/-- The lines that there are. -/
def lineArities : List (String × Nat) :=
  [("connecting", 2), ("paraAt", 3), ("perpAt", 3), ("mediator", 2), ("ibisector", 3),
    ("ebisector", 3), ("eqoangle", 5)]

/-- The relations that there are. -/
def relationArities : List (String × Nat) :=
  [("perp", 4), ("para", 4), ("cong", 4), ("midp", 3), ("coll", 3), ("between", 3), ("onCirc", 3),
    ("concyc", 4)]

/-- The constructions from points that there are. -/
def constructionArities : List (String × Nat) :=
  [("midp", 2), ("midpFrom", 2), ("circumcenter", 3), ("orthocenter", 3), ("centroid", 3),
    ("incenter", 3)]

theorem Geometry.LineKind.ofId?_cases (id : String) :
    (lineArities.lookup id = none ∧ ofId? id = none) ∨
      ∃ kind, lineArities.lookup id = some kind.arity ∧ ofId? id = some kind := by
  unfold ofId?
  split
  all_goals first | exact .inr ⟨_, rfl, rfl⟩ | refine .inl ⟨?_, rfl⟩
  simp_all [lineArities, List.lookup_eq_none_iff]

theorem RelationKind.ofId_cases (id : String) :
    (relationArities.lookup id = none ∧ ofId id = .error (.unsupported .predicate id)) ∨
      ∃ kind, relationArities.lookup id = some kind.arity ∧ ofId id = .ok kind := by
  unfold ofId
  split
  all_goals first | exact .inr ⟨_, rfl, rfl⟩ | refine .inl ⟨?_, rfl⟩
  simp_all [relationArities, List.lookup_eq_none_iff]

theorem ConstructionKind.ofId_cases (id : String) :
    (id = "interLL" ∧ ofId id = .ok .intersection) ∨
      id ≠ "interLL" ∧
        ((constructionArities.lookup id = none ∧ ofId id = .error (.unsupported .computation id)) ∨
          ∃ kind, constructionArities.lookup id = some kind.arity ∧ ofId id = .ok kind ∧
            kind ≠ .intersection) := by
  unfold ofId
  split
  all_goals first
    | exact .inr ⟨by decide, .inr ⟨_, rfl, rfl, nofun⟩⟩
    | exact .inl ⟨rfl, rfl⟩
    | refine .inr ⟨by assumption, .inl ⟨?_, rfl⟩⟩
  simp_all [constructionArities, List.lookup_eq_none_iff]

section Arity

variable {S α : Type} {arities : List (String × Nat)} {kind : MethodKind} {id : String}
  {given n : Nat} {error : Nat → DraftError} {l : List Check} {x : Except DraftError α}

theorem Decides.unknown (h : arities.lookup id = none) :
    Decides (arityChecks arities kind id given error ++ l)
      (.error (.unsupported kind id) : Except DraftError α) :=
  .fail (by rw [h]; rfl)

theorem Decides.arity (h : arities.lookup id = some n) (hx : given = n → Decides l x) :
    Decides (arityChecks arities kind id given error ++ l)
      (if given ≠ n then .error (error n) else x) := by
  unfold arityChecks
  rw [h]
  refine .skip rfl ?_
  split_ifs with hgiven
  · exact .fail (beq_eq_false_iff_ne.mpr fun heq => hgiven (Option.some.inj heq).symm)
  · obtain rfl := not_not.mp hgiven
    exact .skip (beq_self_eq_true _) (hx rfl)

theorem Geometry.LineKind.line?_of_arity {kind : LineKind} {points : List (Point S)}
    (h : points.length = kind.arity) : ∃ l, kind.line? points = some l := by
  cases kind <;> rcases points with _ | ⟨a, _ | ⟨b, _ | ⟨c, _ | ⟨d, _ | ⟨e, _ | _⟩⟩⟩⟩⟩ <;>
    first | exact ⟨_, rfl⟩ | cases h

theorem RelationKind.relation?_of_arity {kind : RelationKind} {points : List (Point S)}
    (h : points.length = kind.arity) : ∃ r, kind.relation? points = some r := by
  cases kind <;> rcases points with _ | ⟨a, _ | ⟨b, _ | ⟨c, _ | ⟨d, _ | _⟩⟩⟩⟩ <;>
    first | exact ⟨_, rfl⟩ | cases h

theorem ConstructionKind.construction?_cases {kind : ConstructionKind} (h : kind ≠ .intersection)
    (points : List (Point S)) :
    (points.length = kind.arity ∧ ∃ k, kind.construction? points = some k) ∨
      points.length ≠ kind.arity ∧ kind.construction? points = none := by
  cases kind <;> rcases points with _ | ⟨a, _ | ⟨b, _ | ⟨c, _ | _⟩⟩⟩ <;>
    first
      | exact (h rfl).elim
      | exact .inl ⟨rfl, _, rfl⟩
      | exact .inr ⟨(nomatch ·), rfl⟩

end Arity

/-! ### Instructions -/

section Checks

variable (isDefined : String → Bool)

/-- A line is looked at before its points. -/
def LineSpec.checks (l : LineSpec) : List Check :=
  arityChecks lineArities .line l.pred l.points.length (.linePoints l.pred · l.points.length) ++
    definedChecks isDefined l.points

def Constraint.checks (c : Constraint) : List Check :=
  ⟨!c.negate, .negated c.pred⟩ ::
    arityChecks relationArities .predicate c.pred c.points.length
        (.relationPoints c.pred · c.points.length) ++
      definedChecks isDefined c.points

/-- An operand must be a point; points must be there. -/
def Operand.check (method : String) : Operand → Check
  | .point name => ⟨isDefined name, .undefinedPoint name⟩
  | .line _ => ⟨false, .lineOperand method⟩

/-- The operands of an intersection are two lines. -/
def intersectionChecks : List Operand → List Check
  | [.line l, .line m] => l.checks isDefined ++ m.checks isDefined
  | _ => [⟨false, .notTwoLines⟩]

/-- Other operands are looked at before they are counted. -/
def Computation.operandChecks (c : Computation) : List Check :=
  if c.method = "interLL" then intersectionChecks isDefined c.operands
  else
    let arity := constructionArities.lookup c.method
    c.operands.map (Operand.check isDefined c.method) ++
      [⟨arity == some c.operands.length, .operandCount c.method (arity.getD 0) c.operands.length⟩]

def Computation.checks (name : String) (c : Computation) : List Check :=
  ⟨c.method == "interLL" || (constructionArities.lookup c.method).isSome,
      .unsupported .computation c.method⟩ ::
    newChecks isDefined [name] ++ c.operandChecks isDefined

/-- Samplers that are told a vertex. -/
def vertexSamplers : List String := ["isoTri", "acuteIsoTri", "rightTri"]

/-- Samplers for triangles of some shape. -/
def shapedSamplers : List String := ["acuteTri", "equiTri"] ++ vertexSamplers

/-- Samplers for polygons; a triangle of no shape is one. -/
def polygonSamplers : List String := ["polygon", "triangle"]

def samplerChecks (id : String) (args : List String) : List Check :=
  [⟨("uniform" :: polygonSamplers ++ shapedSamplers).contains id, .unsupported .sampling id⟩,
    ⟨!(vertexSamplers.contains id && args.isEmpty), .noVertex id⟩]

/-- The vertex that is singled out must be one of the three. -/
def vertexChecks : Option String → List String → List Check
  | some v, [a, b, c] => [⟨[a, b, c].contains v, .notAVertex v a b c⟩]
  | _, _ => []

/-- The names that a sampler can be used with. -/
def placementChecks (names : List String) (id : String) (args : List String) : List Check :=
  if polygonSamplers.contains id then [⟨3 ≤ names.length, .fewVertices names.length⟩]
  else if shapedSamplers.contains id then
    ⟨names.length = 3, .notThreePoints names.length⟩ ::
      vertexChecks (if vertexSamplers.contains id then args.head? else none) names
  else []

/-- What can be checked by the names of the points, in order. -/
def Instruction.nameChecks : Instruction → List Check
  | .sample points sampler args =>
    samplerChecks sampler args ++ (newChecks isDefined points ++ placementChecks points sampler args)
  | .parameterize point id =>
    ⟨id == "coords", .unsupported .parameterization id⟩ :: newChecks isDefined [point]
  | .compute point c => c.checks isDefined point
  | .assert c => c.checks isDefined

end Checks

theorem Sampler.ofId_decides (id : String) (args : List String) :
    Decides (samplerChecks id args) (Sampler.ofId id args) := by
  unfold Sampler.ofId
  split
  case h_9 => exact .fail (by simp_all [polygonSamplers, shapedSamplers, vertexSamplers])
  case h_4 | h_6 | h_7 =>
    cases args with
    | nil => exact .skip rfl (.fail rfl)
    | cons v _ => exact .skip rfl (.skip rfl (.pure _))
  all_goals exact .skip rfl (.skip rfl (.pure _))

theorem Placement.ofPolygon_decides (names : List String) :
    Decides [⟨3 ≤ names.length, .fewVertices names.length⟩] (Placement.ofPolygon names) := by
  unfold ofPolygon
  split_ifs with h
  · exact .fail (decide_eq_false (Nat.not_le.mpr h))
  · exact .skip (decide_eq_true (Nat.not_lt.mp h)) (.pure _)

theorem Placement.apexCorner_decides (shape : TriangleShape) (a b c : String) :
    Decides (vertexChecks shape.vertex? [a, b, c]) (apexCorner shape a b c) := by
  unfold apexCorner
  cases shape.vertex? with
  | none => exact .pure _
  | some v =>
      dsimp only [vertexChecks]
      split_ifs with ha hb hc
      · exact .skip (by simp [ha]) (.pure _)
      · exact .skip (by simp [hb]) (.pure _)
      · exact .skip (by simp [hc]) (.pure _)
      · exact .fail (by simp [ha, hb, hc])

/-- A triangle of some shape has three vertices, among them the one that the shape singles out. -/
theorem Placement.shaped_decides (shape : TriangleShape) (h : shape.isPlain = false)
    (names : List String) :
    Decides (⟨names.length = 3, .notThreePoints names.length⟩ :: vertexChecks shape.vertex? names)
      (Placement.ofSampler (.triangle shape) names) := by
  dsimp only [ofSampler]
  rw [h, if_neg Bool.false_ne_true]
  split
  next a b c =>
    exact .skip rfl ((apexCorner_decides shape a b c).bind_ok fun _ _ => ⟨_, rfl⟩)
  next hne =>
    refine .fail (decide_eq_false fun hlength => ?_)
    obtain ⟨a, b, c, rfl⟩ := List.length_eq_three.mp hlength
    exact hne a b c rfl

theorem Placement.ofSampler_decides {id : String} {args : List String} {s : Sampler}
    (h : Sampler.ofId id args = .ok s) (names : List String) :
    Decides (placementChecks names id args) (ofSampler s names) := by
  -- one case per identifier, the first argument being the vertex where a sampler is told one
  unfold Sampler.ofId at h
  split at h
  case h_1 =>
    cases h
    exact .pure _
  case h_2 | h_3 =>
    cases h
    exact ofPolygon_decides names
  case h_4 =>
    obtain _ | ⟨v, _⟩ := args <;> cases h
    exact shaped_decides { iso := some v } rfl names
  case h_5 =>
    cases h
    exact shaped_decides { acute := true } rfl names
  case h_6 =>
    obtain _ | ⟨v, _⟩ := args <;> cases h
    exact shaped_decides { iso := some v, acute := true } rfl names
  case h_7 =>
    obtain _ | ⟨v, _⟩ := args <;> cases h
    exact shaped_decides { right := some v } rfl names
  case h_8 =>
    cases h
    exact shaped_decides { equi := true } rfl names
  case h_9 => cases h

namespace PointTable

variable {S : Type} (t : PointTable S)

theorem line_decides (l : LineSpec) : Decides (l.checks t.contains) (t.line l) := by
  unfold line LineSpec.checks
  obtain ⟨hlookup, hkind⟩ | ⟨kind, hlookup, hkind⟩ := Geometry.LineKind.ofId?_cases l.pred
  · simp only [hkind]
    exact .unknown hlookup
  · simp only [hkind]
    refine .arity hlookup fun harity => ?_
    refine (t.mapM_get_decides l.points).bind_ok fun points hpoints => ?_
    have hlength := (mapM_get_eq_ok.mp hpoints).length_eq
    obtain ⟨l, hl⟩ := Geometry.LineKind.line?_of_arity (hlength.symm.trans harity)
    rw [hl]
    exact ⟨l, rfl⟩

theorem operand_decides (method : String) (o : Operand) :
    Decides [o.check t.contains method] (t.operand method o) := by
  cases o with
  | point name => exact t.get_decides name
  | line l => exact .fail rfl

theorem construction_decides (name : String) {kind : ConstructionKind} {c : Computation}
    (hlookup : constructionArities.lookup c.method = some kind.arity) (hkind : kind ≠ .intersection) :
    Decides (c.operands.map (Operand.check t.contains c.method) ++
        [⟨constructionArities.lookup c.method == some c.operands.length,
          .operandCount c.method ((constructionArities.lookup c.method).getD 0)
            c.operands.length⟩])
      (t.construction name kind c) := by
  rw [hlookup]
  -- all operands are looked up before it matters how many there are
  refine (Decides.mapM (t.operand_decides c.method) c.operands).bind fun points hpoints => ?_
  have hlength := (mapM_eq_ok.mp hpoints).length_eq
  obtain ⟨harity, k, hk⟩ | ⟨harity, hk⟩ :=
    ConstructionKind.construction?_cases hkind points
  · rw [hk]
    refine .skip (beq_iff_eq.mpr ?_) (.pure _)
    rw [hlength, harity]
  · rw [hk, hlength]
    exact .fail (beq_eq_false_iff_ne.mpr fun heq => harity (Option.some.inj heq).symm)

theorem intersection_decides (name : String) (operands : List Operand) :
    Decides (intersectionChecks t.contains operands) (t.intersection name operands) := by
  unfold intersection
  split
  next l m =>
    exact (t.line_decides l).bind fun l' _ => (t.line_decides m).bind_ok fun m' _ => ⟨_, rfl⟩
  next hlines =>
    have hchecks : intersectionChecks t.contains operands = [⟨false, .notTwoLines⟩] := by
      unfold intersectionChecks
      split
      · exact (hlines _ _ rfl).elim
      · rfl
    rw [hchecks]
    exact .fail rfl

theorem computation_decides (name : String) (c : Computation) :
    Decides (c.checks t.contains name) (t.computation name c) := by
  unfold computation Computation.checks
  obtain ⟨hmethod, hkind⟩ | ⟨hmethod, ⟨hlookup, hkind⟩ | ⟨kind, hlookup, hkind, hne⟩⟩ :=
    ConstructionKind.ofId_cases c.method
  · rw [hkind]
    have hknown : (c.method == "interLL" || (constructionArities.lookup c.method).isSome) = true := by
      rw [hmethod]
      rfl
    refine .skip hknown ((t.fresh_decides [name]).bind fun _ _ => ?_)
    rw [Computation.operandChecks, if_pos hmethod, if_pos rfl]
    exact t.intersection_decides name c.operands
  · rw [hkind]
    have hunknown : (c.method == "interLL" || (constructionArities.lookup c.method).isSome) = false := by
      rw [hlookup, beq_false_of_ne hmethod]
      rfl
    exact .fail hunknown
  · rw [hkind]
    have hknown : (c.method == "interLL" || (constructionArities.lookup c.method).isSome) = true := by
      rw [hlookup]
      exact Bool.or_true _
    refine .skip hknown ((t.fresh_decides [name]).bind fun _ _ => ?_)
    rw [Computation.operandChecks, if_neg hmethod, if_neg hne]
    exact t.construction_decides name hlookup hne

theorem constraint_decides (c : Constraint) :
    Decides (c.checks t.contains) (t.constraint c) := by
  unfold constraint Constraint.checks
  cases hnegate : c.negate with
  | true => exact .fail rfl
  | false =>
      refine .skip rfl ?_
      rw [if_neg Bool.false_ne_true]
      obtain ⟨hlookup, hkind⟩ | ⟨kind, hlookup, hkind⟩ := RelationKind.ofId_cases c.pred
      · rw [hkind]
        exact .unknown hlookup
      · rw [hkind]
        refine .arity hlookup fun harity => ?_
        refine (t.mapM_get_decides c.points).bind_ok fun points hpoints => ?_
        have hlength := (mapM_get_eq_ok.mp hpoints).length_eq
        obtain ⟨r, hr⟩ := RelationKind.relation?_of_arity (hlength.symm.trans harity)
        rw [hr]
        exact ⟨_, rfl⟩

theorem check_decides (i : Instruction) : Decides (i.nameChecks t.contains) (t.check i) := by
  cases i with
  | sample points sampler args =>
      refine (Sampler.ofId_decides sampler args).bind fun s hs => ?_
      refine (t.fresh_decides points).bind fun _ _ => ?_
      exact (Placement.ofSampler_decides hs points).bind_ok fun _ _ => ⟨_, rfl⟩
  | parameterize point id =>
      have hid : Decides [⟨id == "coords", .unsupported .parameterization id⟩]
          (Parameterization.ofId id) := by
        unfold Parameterization.ofId
        split
        · exact .skip rfl (.pure _)
        · exact .fail (by simp_all)
      exact hid.bind fun _ _ => (t.fresh_decides [point]).bind_ok fun _ _ => ⟨_, rfl⟩
  | compute point c => exact t.computation_decides point c
  | assert c => exact t.constraint_decides c

end PointTable

end PlaneFigure
