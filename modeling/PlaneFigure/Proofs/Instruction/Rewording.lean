import PlaneFigure.Proofs.Instruction.Layout
import PlaneFigure.Proofs.Json.Rewording

/-!
Ways to write the same instructions. The parts of an instruction, and the instruction itself, are
read alike however their records are written.
-/

namespace PlaneFigure

open Json

/-- A value that no step of a relation changes is the same for all that are related. -/
theorem eq_of_eqvGen {α β : Type} {r : α → α → Prop} {f : α → β} {a b : α}
    (hf : ∀ a b, r a b → f a = f b) (h : Relation.EqvGen r a b) : f a = f b := by
  induction h with
  | rel a b h => exact hf a b h
  | refl a => rfl
  | symm a b _ ih => exact ih.symm
  | trans a b c _ _ ih ih' => exact ih.trans ih'

theorem mapM_congr_forall₂ {α β : Type} {f : α → Option β} {l l' : List α}
    (h : List.Forall₂ (fun a b => f a = f b) l l') : l.mapM f = l'.mapM f := by
  induction h with
  | nil => rfl
  | cons h _ ih => rw [List.mapM_cons, List.mapM_cons, h, ih]

/-- Arrays whose items are alike. -/
inductive Json.Items (alike : Json → Json → Prop) : Json → Json → Prop
  | array {items items' : List Json} (h : List.Forall₂ alike items items') :
      Items alike (.array items) (.array items')

theorem Json.Field.Matches.plain {name : String} {value value' : Option Json}
    (h : (Field.plain name).Matches value value') : value = value' := by
  cases h with
  | same => rfl
  | alike h => exact congrArg some h
  | default h => cases h

/-- A field whose default is written out is read as that default. -/
theorem Json.Field.Matches.orElse? {α : Type} {field : Field} {value value' : Option Json}
    {default : α} {read : Json → Option α}
    (hdefault : ∀ v, field.default? = some v → read v = some default)
    (halike : ∀ v w, field.alike v w → read v = read w) (h : field.Matches value value') :
    Json.orElse? default read value = Json.orElse? default read value' := by
  cases h with
  | same => rfl
  | alike h => exact halike _ _ h
  | default h => exact (hdefault _ h).symm

variable {j j' : Json}

/-! ### Parts of instructions -/

namespace LineSpec

def table : List Field := [.plain "pred", .plain "points"]

/-- Writings of one line. -/
def Alike : Json → Json → Prop := Relation.EqvGen (Rewording table)

theorem ofJson?_alike (h : Alike j j') : ofJson? j = ofJson? j' := by
  refine eq_of_eqvGen (fun _ _ h => h.bind_eq (by decide) fun _ _ hm => ?_) h
  obtain _ | ⟨hpred, _ | ⟨hpoints, _ | _⟩⟩ := hm
  rw [hpred.plain, hpoints.plain]

end LineSpec

namespace Operand

/-- Writings of one operand. A string is written in one way. -/
def Alike : Json → Json → Prop := LineSpec.Alike

theorem ofJson?_alike (h : Alike j j') : ofJson? j = ofJson? j' := by
  refine eq_of_eqvGen (fun j j' h => ?_) h
  have hline : LineSpec.ofJson? j = LineSpec.ofJson? j' := LineSpec.ofJson?_alike (.rel j j' h)
  cases h <;> exact congrArg (Option.map line) hline

end Operand

namespace Computation

def table : List Field := [.plain "method", ⟨"operands", none, Items Operand.Alike⟩]

/-- Writings of one computation. -/
def Alike : Json → Json → Prop := Relation.EqvGen (Rewording table)

theorem ofJson?_alike (h : Alike j j') : ofJson? j = ofJson? j' := by
  refine eq_of_eqvGen (fun _ _ h => h.bind_eq (by decide) fun _ _ hm => ?_) h
  obtain _ | @⟨_, _, _, method, _, _, hmethod, _ | ⟨hoperands, _ | _⟩⟩ := hm
  rw [hmethod.plain]
  cases hoperands with
  | same => rfl
  | alike h =>
      obtain ⟨hitems⟩ := h
      have hoperands := mapM_congr_forall₂ (hitems.imp fun _ _ => Operand.ofJson?_alike)
      cases method with
      | none => rfl
      | some method => simp only [hoperands]
  | default h => cases h

end Computation

namespace Constraint

def table : List Field := [.plain "pred", .plain "points", ⟨"negate", some (.bool false), Eq⟩]

/-- Writings of one constraint. -/
def Alike : Json → Json → Prop := Relation.EqvGen (Rewording table)

theorem ofJson?_alike (h : Alike j j') : ofJson? j = ofJson? j' := by
  refine eq_of_eqvGen (fun _ _ h => h.bind_eq (by decide) fun _ _ hm => ?_) h
  obtain _ | @⟨_, _, _, pred, _, _, hpred, _ | @⟨_, _, _, points, _, _, hpoints,
    _ | ⟨hnegate, _ | _⟩⟩⟩ := hm
  have hflag : orElse? false bool? _ = orElse? false bool? _ :=
    hnegate.orElse? (by rintro _ ⟨⟩; rfl) fun _ _ h => congrArg bool? h
  rw [hpred.plain, hpoints.plain]
  cases pred with
  | none => rfl
  | some pred =>
      cases points with
      | none => rfl
      | some points => simp only [hflag]

end Constraint

/-! ### Instructions -/

namespace Instruction

/-- The fields of an instruction besides its kind, by what is written as the kind. -/
def table : Option Json → List Field
  | some (.string "sample") => [.plain "points", .plain "sampler", ⟨"args", some (.array []), Eq⟩]
  | some (.string "compute") => [.plain "point", ⟨"computation", none, Computation.Alike⟩]
  | some (.string "parameterize") => [.plain "point", .plain "parameterization"]
  | some (.string "assert") => [⟨"constraint", none, Constraint.Alike⟩]
  | _ => []

/-- The fields that a document has as an instruction. -/
def known (j : Json) : List Field := .plain "kind" :: table (j.leading? "kind")

/-- Writings of one instruction. -/
def Alike : Json → Json → Prop := Relation.EqvGen fun j j' => Rewording (known j) j j'

theorem table_names (kind : String) :
    (table (some (.string kind))).map Field.name = (fields kind).getD [] := by
  unfold fields
  split
  · rfl
  · rfl
  · rfl
  · rfl
  · unfold table
    split <;> simp_all

theorem known_nodup (j : Json) : ((known j).map Field.name).Nodup := by
  unfold known table
  split <;> decide +revert

theorem ofFields?_matching {kind : String} {values values' : List (Option Json)}
    (h : Matching (table (some (.string kind))) values values') :
    ofFields? kind values = ofFields? kind values' := by
  generalize hkind : some (Json.string kind) = value at h
  unfold table at h
  split at h
  · cases hkind
    obtain _ | @⟨_, _, _, points, _, _, hpoints, _ | @⟨_, _, _, sampler, _, _, hsampler,
      _ | ⟨hargs, _ | _⟩⟩⟩ := h
    have hargs : orElse? [] strings? _ = orElse? [] strings? _ :=
      hargs.orElse? (by rintro _ ⟨⟩; rfl) fun _ _ h => congrArg strings? h
    rw [hpoints.plain, hsampler.plain]
    cases points with
    | none => rfl
    | some points =>
        cases sampler with
        | none => rfl
        | some sampler => simp only [ofFields?, hargs]
  · cases hkind
    obtain _ | @⟨_, _, _, point, _, _, hpoint, _ | ⟨hcomputation, _ | _⟩⟩ := h
    rw [hpoint.plain]
    cases hcomputation with
    | same => rfl
    | alike h =>
        cases point with
        | none => rfl
        | some point => simp only [ofFields?, Computation.ofJson?_alike h]
    | default h => cases h
  · cases hkind
    obtain _ | ⟨hpoint, _ | ⟨hparameterization, _ | _⟩⟩ := h
    rw [hpoint.plain, hparameterization.plain]
  · cases hkind
    obtain _ | ⟨hconstraint, _ | _⟩ := h
    cases hconstraint with
    | same => rfl
    | alike h => simp only [ofFields?, Constraint.ofJson?_alike h]
    | default h => cases h
  · cases h
    rfl

theorem ofJson?_rewording (h : Rewording (known j) j j') : ofJson? j = ofJson? j' := by
  have hnodup := known_nodup j
  have hleading := h.leading? (List.nodup_cons.mp hnodup).1
  by_cases hkind : ∃ kind, j.leading? "kind" = some (.string kind)
  · obtain ⟨kind, hkind⟩ := hkind
    rw [ofJson?_of_leading hkind, ofJson?_of_leading (hleading.symm.trans hkind), ← table_names,
      ← hkind]
    refine h.bind_eq hnodup fun values values' hm => ?_
    rw [known, hkind] at hm
    cases hm with
    | cons _ hm => exact ofFields?_matching hm
  · rw [ofJson?_eq_none (not_exists.mp hkind),
      ofJson?_eq_none (hleading ▸ not_exists.mp hkind)]

theorem ofJson?_alike (h : Alike j j') : ofJson? j = ofJson? j' :=
  eq_of_eqvGen (fun _ _ => ofJson?_rewording) h

/-- Writings of one list of instructions. -/
def ListAlike : Json → Json → Prop := Items Alike

theorem listOfJson?_alike (h : ListAlike j j') : listOfJson? j = listOfJson? j' := by
  obtain ⟨h⟩ := h
  exact mapM_congr_forall₂ (h.imp fun _ _ => ofJson?_alike)

/-- The reader accepts the writings of lists of instructions and nothing else, and reads the same
from all writings of one list. -/
theorem layout_read :
    (∀ (j : Json) (is : List Instruction), listOfJson? j = some is ↔ ListWrittenAs is j) ∧
      ∀ j j' : Json, ListAlike j j' → listOfJson? j = listOfJson? j' :=
  ⟨fun _ _ => listOfJson?_eq_some, fun _ _ => listOfJson?_alike⟩

/-- A point placed freely: an object in another order and with one member too many, and an array
with the default written out. -/
theorem layout_read_uniform :
    ListAlike
        (.array [.object [("sampler", .string "uniform"), ("note", .null),
          ("points", .strings ["P"]), ("kind", .string "sample")]])
        (.array [.array [.string "sample", .strings ["P"], .string "uniform", .array []]]) ∧
      listOfJson? (.array [.object [("sampler", .string "uniform"), ("note", .null),
          ("points", .strings ["P"]), ("kind", .string "sample")]]) =
        listOfJson? (.array [.array [.string "sample", .strings ["P"], .string "uniform",
          .array []]]) := by
  have hshort : Alike
      (.object [("sampler", .string "uniform"), ("note", .null), ("points", .strings ["P"]),
        ("kind", .string "sample")])
      (.array [.string "sample", .strings ["P"], .string "uniform"]) := by
    refine .rel _ _ (.array (n := 1) rfl (.object ?_))
    simp [known, leading?, field?, occurrence, table, Field.plain, Holds]
  have hdefault : Alike (.array [.string "sample", .strings ["P"], .string "uniform"])
      (.array [.string "sample", .strings ["P"], .string "uniform", .array []]) :=
    .rel _ _ (@Rewording.defaultItem _ _ [.plain "kind", .plain "points", .plain "sampler"] [] _ _
      rfl rfl rfl)
  have hlist := Items.array (.cons (Relation.EqvGen.trans _ _ _ hshort hdefault) .nil)
  exact ⟨hlist, layout_read.2 _ _ hlist⟩

end Instruction

end PlaneFigure
