import PlaneFigure.Proofs.Json.Record

/-!
Which documents are instructions. Each part of an instruction is a record of its fields, and the
reader accepts just the writings described here, with the meaning they are given here.
-/

namespace PlaneFigure

open Json

variable {j : Json}

/-! ### Parts of instructions -/

def LineSpec.WrittenAs (l : LineSpec) (j : Json) : Prop :=
  IsRecord [("pred", some (.string l.pred)), ("points", some (.strings l.points))] j

theorem LineSpec.ofJson?_eq_some {l : LineSpec} : ofJson? j = some l ↔ l.WrittenAs j := by
  refine bind_record?_eq_some.trans ⟨?_, fun h => ⟨[some _, some _], rfl, h, ?_⟩⟩
  · rintro ⟨values, -, hrecord, h⟩
    split at h
    · simp only [Option.bind_eq_bind, Option.bind_eq_some_iff, string?_eq_some,
        strings?_eq_some, Option.pure_def, Option.some_inj] at h
      obtain ⟨pred, rfl, points, rfl, rfl⟩ := h
      exact hrecord
    · cases h
  · simp only [Option.bind_eq_bind, Option.bind_eq_some_iff, string?_eq_some,
      strings?_eq_some, Option.pure_def, Option.some_inj]
    exact ⟨_, rfl, _, rfl, rfl⟩

/-- A point is a string, a line is a record. -/
def Operand.WrittenAs : Operand → Json → Prop
  | point name, j => j = .string name
  | line spec, j => spec.WrittenAs j

theorem Operand.ofJson?_eq_some {o : Operand} : ofJson? j = some o ↔ o.WrittenAs j := by
  cases j with
  | string s =>
      cases o with
      | point name => simp [ofJson?, WrittenAs]
      | line spec => constructor <;> intro h <;> cases h
  | _ =>
      rw [ofJson?, Option.map_eq_some_iff]
      · simp only [LineSpec.ofJson?_eq_some]
        cases o <;> simp [WrittenAs]
      · nofun

/-- The operands are an array of their writings. -/
def Computation.WrittenAs (c : Computation) (j : Json) : Prop :=
  ∃ operands : List Json,
    IsRecord [("method", some (.string c.method)), ("operands", some (.array operands))] j ∧
      List.Forall₂ (fun item o => o.WrittenAs item) operands c.operands

theorem Computation.ofJson?_eq_some {c : Computation} : ofJson? j = some c ↔ c.WrittenAs j := by
  refine bind_record?_eq_some.trans ⟨?_, ?_⟩
  · rintro ⟨values, -, hrecord, h⟩
    split at h
    · simp only [Option.bind_eq_bind, Option.bind_eq_some_iff, string?_eq_some,
        mapM_eq_some_iff, Operand.ofJson?_eq_some, Option.pure_def, Option.some_inj] at h
      obtain ⟨method, rfl, operands, hoperands, rfl⟩ := h
      exact ⟨_, hrecord, hoperands⟩
    · cases h
  · rintro ⟨operands, hrecord, hoperands⟩
    refine ⟨[some _, some (.array operands)], rfl, hrecord, ?_⟩
    simp only [Option.bind_eq_bind, Option.bind_eq_some_iff, string?_eq_some,
      mapM_eq_some_iff, Operand.ofJson?_eq_some, Option.pure_def, Option.some_inj]
    exact ⟨_, rfl, _, hoperands, rfl⟩

/-- The flag may be absent; then it is `false`. -/
def Constraint.WrittenAs (c : Constraint) (j : Json) : Prop :=
  ∃ negate : Option Json,
    IsRecord [("pred", some (.string c.pred)), ("points", some (.strings c.points)),
        ("negate", negate)] j ∧
      (negate = none ∧ c.negate = false ∨ negate = some (.bool c.negate))

theorem Constraint.ofJson?_eq_some {c : Constraint} : ofJson? j = some c ↔ c.WrittenAs j := by
  refine bind_record?_eq_some.trans ⟨?_, ?_⟩
  · rintro ⟨values, -, hrecord, h⟩
    split at h
    · simp only [Option.bind_eq_bind, Option.bind_eq_some_iff, string?_eq_some,
        strings?_eq_some, orElse?_eq_some, bool?_eq_some, Option.pure_def, Option.some_inj] at h
      obtain ⟨pred, rfl, points, rfl, negate, ⟨rfl, rfl⟩ | ⟨_, rfl, rfl⟩, rfl⟩ := h
      · exact ⟨_, hrecord, .inl ⟨rfl, rfl⟩⟩
      · exact ⟨_, hrecord, .inr rfl⟩
    · cases h
  · rintro ⟨negate, hrecord, hnegate⟩
    refine ⟨[some _, some _, negate], rfl, hrecord, ?_⟩
    simp only [Option.bind_eq_bind, Option.bind_eq_some_iff, string?_eq_some,
      strings?_eq_some, orElse?_eq_some, bool?_eq_some, Option.pure_def, Option.some_inj]
    refine ⟨_, rfl, _, rfl, c.negate, ?_, rfl⟩
    exact hnegate.imp_right fun h => ⟨_, h, rfl⟩

/-! ### Instructions -/

namespace Instruction

/-- The kind is a field like the others; the arguments of a sampler may be absent. -/
def WrittenAs : Instruction → Json → Prop
  | sample points sampler args, j =>
    ∃ value : Option Json,
      IsRecord [("kind", some (.string "sample")), ("points", some (.strings points)),
          ("sampler", some (.string sampler)), ("args", value)] j ∧
        (value = none ∧ args = [] ∨ value = some (.strings args))
  | compute point computation, j =>
    ∃ value : Json,
      IsRecord [("kind", some (.string "compute")), ("point", some (.string point)),
          ("computation", some value)] j ∧
        computation.WrittenAs value
  | parameterize point parameterization, j =>
    IsRecord [("kind", some (.string "parameterize")), ("point", some (.string point)),
      ("parameterization", some (.string parameterization))] j
  | assert constraint, j =>
    ∃ value : Json,
      IsRecord [("kind", some (.string "assert")), ("constraint", some value)] j ∧
        constraint.WrittenAs value

theorem ofFields?_of_fields_eq_none {kind : String} (h : fields kind = none)
    (values : List (Option Json)) : ofFields? kind values = none := by
  unfold ofFields?
  split
  · simp [fields] at h
  · simp [fields] at h
  · simp [fields] at h
  · simp [fields] at h
  · rfl

/-- A record whose first field is its kind is that field in front of the others. -/
theorem tagged?_of_leading {kind : String} (h : j.leading? "kind" = some (.string kind)) :
    ∃ record, j.tagged? = some (kind, record) ∧
      ∀ names, j.record? ("kind" :: names) =
        (record.record? names).map (some (.string kind) :: ·) := by
  cases j with
  | object members =>
      have hfield : field? members "kind" = some (some (.string kind)) := Option.join_eq_some_iff.mp h
      refine ⟨.object members, ?_, fun names => ?_⟩
      · rw [field?] at hfield
        rw [tagged?]
        split at hfield <;> simp_all
      · cases hnames : names.mapM (field? members) <;> simp [record?, hfield, hnames]
  | array items =>
      obtain ⟨items, rfl⟩ : ∃ rest, items = .string kind :: rest := by
        cases items <;> simp_all [leading?]
      refine ⟨.array items, rfl, fun names => ?_⟩
      by_cases hlength : names.length < items.length
      · simp [record?, hlength]
      · simp [record?, hlength]
  | _ => cases h

theorem tagged?_eq_none (h : ∀ kind, j.leading? "kind" ≠ some (.string kind)) :
    j.tagged? = none := by
  cases j with
  | object members =>
      rw [tagged?]
      split
      next kind hkind =>
        refine absurd ?_ (h kind)
        rw [leading?, field?, hkind]
        rfl
      · rfl
  | array items =>
      cases items with
      | nil => rfl
      | cons value items =>
          cases value with
          | string kind => exact absurd rfl (h kind)
          | _ => rfl
  | _ => rfl

theorem ofJson?_of_leading {kind : String} (h : j.leading? "kind" = some (.string kind)) :
    ofJson? j = (j.record? ("kind" :: (fields kind).getD [])).bind fun values =>
      ofFields? kind values.tail := by
  obtain ⟨record, htagged, hrecord⟩ := tagged?_of_leading h
  rw [ofJson?, htagged, hrecord]
  cases hfields : fields kind with
  | none => simp [hfields, ofFields?_of_fields_eq_none hfields]
  | some names => simp [hfields, Option.bind_map, Function.comp_def]

theorem ofJson?_eq_none (h : ∀ kind, j.leading? "kind" ≠ some (.string kind)) :
    ofJson? j = none := by
  rw [ofJson?, tagged?_eq_none h]
  rfl

/-- An instruction is read from a record of its kind and the fields of that kind. -/
theorem ofJson?_eq_some_iff_fields {i : Instruction} :
    ofJson? j = some i ↔ ∃ kind values,
      IsRecord (("kind" :: (fields kind).getD []).zip (some (.string kind) :: values)) j ∧
        ((fields kind).getD []).length = values.length ∧ ofFields? kind values = some i := by
  constructor
  · intro h
    by_cases hkind : ∃ kind, j.leading? "kind" = some (.string kind)
    · obtain ⟨kind, hkind⟩ := hkind
      rw [ofJson?_of_leading hkind, Option.bind_eq_some_iff] at h
      obtain ⟨values, hvalues, h⟩ := h
      obtain ⟨value, values, rfl⟩ := List.exists_cons_of_length_eq_add_one (record?_length hvalues)
      obtain rfl : value = some (.string kind) := (record?_cons hvalues).symm.trans hkind
      obtain ⟨hlength, hrecord⟩ := record?_eq_some.mp hvalues
      exact ⟨kind, values, hrecord, Nat.succ.inj hlength, h⟩
    · rw [ofJson?_eq_none (not_exists.mp hkind)] at h
      cases h
  · rintro ⟨kind, values, hrecord, hlength, h⟩
    have hvalues : j.record? ("kind" :: (fields kind).getD []) =
        some (some (.string kind) :: values) :=
      record?_eq_some.mpr ⟨congrArg Nat.succ hlength, hrecord⟩
    rw [ofJson?_of_leading (record?_cons hvalues), hvalues]
    exact h

theorem ofJson?_eq_some {i : Instruction} : ofJson? j = some i ↔ i.WrittenAs j := by
  rw [ofJson?_eq_some_iff_fields]
  constructor
  · rintro ⟨kind, values, hrecord, -, h⟩
    unfold ofFields? at h
    split at h
    · simp only [Option.bind_eq_bind, Option.bind_eq_some_iff, string?_eq_some,
        strings?_eq_some, orElse?_eq_some, Option.pure_def, Option.some_inj] at h
      obtain ⟨points, rfl, sampler, rfl, args, ⟨rfl, rfl⟩ | ⟨_, rfl, rfl⟩, rfl⟩ := h
      · exact ⟨_, hrecord, .inl ⟨rfl, rfl⟩⟩
      · exact ⟨_, hrecord, .inr rfl⟩
    · simp only [Option.bind_eq_bind, Option.bind_eq_some_iff, string?_eq_some,
        Computation.ofJson?_eq_some, Option.pure_def, Option.some_inj] at h
      obtain ⟨point, rfl, computation, hcomputation, rfl⟩ := h
      exact ⟨_, hrecord, hcomputation⟩
    · simp only [Option.bind_eq_bind, Option.bind_eq_some_iff, string?_eq_some, Option.pure_def,
        Option.some_inj] at h
      obtain ⟨point, rfl, parameterization, rfl, rfl⟩ := h
      exact hrecord
    · simp only [Option.bind_eq_bind, Option.bind_eq_some_iff, Constraint.ofJson?_eq_some,
        Option.pure_def, Option.some_inj] at h
      obtain ⟨constraint, hconstraint, rfl⟩ := h
      exact ⟨_, hrecord, hconstraint⟩
    · cases h
  · intro h
    cases i with
    | sample points sampler args =>
        obtain ⟨value, hrecord, hvalue⟩ := h
        refine ⟨"sample", [some _, some _, value], hrecord, rfl, ?_⟩
        simp only [ofFields?, Option.bind_eq_bind, Option.bind_eq_some_iff, string?_eq_some,
          strings?_eq_some, orElse?_eq_some, Option.pure_def, Option.some_inj]
        exact ⟨_, rfl, _, rfl, args, hvalue.imp_right fun h => ⟨_, h, rfl⟩, rfl⟩
    | compute point computation =>
        obtain ⟨value, hrecord, hcomputation⟩ := h
        refine ⟨"compute", [some _, some value], hrecord, rfl, ?_⟩
        simp only [ofFields?, Option.bind_eq_bind, Option.bind_eq_some_iff, string?_eq_some,
          Computation.ofJson?_eq_some, Option.pure_def, Option.some_inj]
        exact ⟨_, rfl, _, hcomputation, rfl⟩
    | parameterize point parameterization =>
        refine ⟨"parameterize", [some _, some _], h, rfl, ?_⟩
        simp only [ofFields?, Option.bind_eq_bind, Option.bind_eq_some_iff, string?_eq_some,
          Option.pure_def, Option.some_inj]
        exact ⟨_, rfl, _, rfl, rfl⟩
    | assert constraint =>
        obtain ⟨value, hrecord, hconstraint⟩ := h
        refine ⟨"assert", [some value], hrecord, rfl, ?_⟩
        simp only [ofFields?, Option.bind_eq_bind, Option.bind_eq_some_iff,
          Constraint.ofJson?_eq_some, Option.pure_def, Option.some_inj]
        exact ⟨_, hconstraint, rfl⟩

/-- A list of instructions is an array of their writings. -/
def ListWrittenAs (is : List Instruction) (j : Json) : Prop :=
  ∃ items : List Json, j = .array items ∧ List.Forall₂ (fun item i => i.WrittenAs item) items is

theorem listOfJson?_eq_some {is : List Instruction} :
    listOfJson? j = some is ↔ ListWrittenAs is j := by
  cases j with
  | array items =>
      simp only [listOfJson?, mapM_eq_some_iff, ofJson?_eq_some, ListWrittenAs, Json.array.injEq,
        exists_eq_left']
  | _ => simp [listOfJson?, ListWrittenAs]

end Instruction

end PlaneFigure
