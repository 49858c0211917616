import Mathlib.Data.List.Forall2
import PlaneFigure.Instruction.Layout

/-!
What a record is, said without reading it: an object in which each field occurs once or, if it is
absent, not at all, or an array of the fields in order, of which the last ones may be absent.
-/

namespace PlaneFigure

theorem mapM_eq_some_iff {α β : Type} {f : α → Option β} {l : List α} {l' : List β} :
    l.mapM f = some l' ↔ List.Forall₂ (fun a b => f a = some b) l l' := by
  induction l generalizing l' with
  | nil => rw [List.mapM_nil, List.forall₂_nil_left_iff, Option.pure_def, Option.some_inj, eq_comm]
  | cons a l ih =>
      simp only [List.mapM_cons, List.forall₂_cons_left_iff, Option.bind_eq_bind,
        Option.bind_eq_some_iff, Option.pure_def, Option.some_inj, ih]
      constructor
      · rintro ⟨b, hb, l₁, hl, rfl⟩
        exact ⟨b, l₁, hb, hl, rfl⟩
      · rintro ⟨b, l₁, hb, hl, rfl⟩
        exact ⟨b, hb, l₁, hl, rfl⟩

namespace Json

variable {name : String} {names : List String} {members : List (String × Json)} {j : Json}

/-! ### Values -/

@[simp] theorem string?_eq_some {s : String} : j.string? = some s ↔ j = .string s := by
  cases j <;> simp [string?]

@[simp] theorem bool?_eq_some {b : Bool} : j.bool? = some b ↔ j = .bool b := by
  cases j <;> simp [bool?]

@[simp] theorem strings?_eq_some {xs : List String} : j.strings? = some xs ↔ j = .strings xs := by
  cases j with
  | array items =>
      have hrel : (fun (a : Json) b => a.string? = some b) = fun a b => a = .string b :=
        funext fun _ => funext fun _ => propext string?_eq_some
      rw [strings?, mapM_eq_some_iff, hrel, ← List.forall₂_map_right_iff, List.forall₂_eq_eq_eq,
        strings, Json.array.injEq]
  | _ => simp [strings?, strings]

theorem orElse?_eq_some {α : Type} {default x : α} {read : Json → Option α} {value : Option Json} :
    orElse? default read value = some x ↔
      (value = none ∧ x = default) ∨ ∃ v, value = some v ∧ read v = some x := by
  cases value <;> simp [orElse?, eq_comm]

/-! ### Fields -/

/-- The members of a name: one with a given value, or none. -/
def Holds (members : List (String × Json)) (name : String) (value : Option Json) : Prop :=
  members.filter (·.1 = name) = value.toList.map (name, ·)

theorem field?_eq_some {value : Option Json} :
    field? members name = some value ↔ Holds members name value := by
  have hname : ∀ m ∈ members.filter (·.1 = name), m.1 = name := fun m hm =>
    of_decide_eq_true (List.mem_filter.mp hm).2
  rw [field?, occurrence, Holds]
  generalize members.filter (·.1 = name) = found at hname
  rcases found with _ | ⟨⟨key, v⟩, _ | ⟨m, ms⟩⟩
  · cases value <;> simp
  · obtain rfl : key = name := hname (key, v) List.mem_cons_self
    cases value <;> simp
  · cases value <;> simp

/-! ### Records -/

/-- A record with given fields, those that are absent being `none`. -/
inductive IsRecord (fields : List (String × Option Json)) : Json → Prop
  | object {members : List (String × Json)} (h : ∀ f ∈ fields, Holds members f.1 f.2) :
      IsRecord fields (.object members)
  | array {items : List Json} {n : Nat}
      (h : fields.map Prod.snd = items.map some ++ List.replicate n none) :
      IsRecord fields (.array items)

theorem record?_array {items : List Json} {n : Nat} (h : names.length = items.length + n) :
    record? names (.array items) = some (items.map some ++ List.replicate n none) := by
  rw [record?, if_neg (by omega), h, Nat.add_sub_cancel_left]

theorem record?_length {values : List (Option Json)} (h : record? names j = some values) :
    values.length = names.length := by
  cases j with
  | object members => exact (mapM_eq_some_iff.mp h).length_eq.symm
  | array items =>
      rw [record?] at h
      split at h
      · cases h
      · cases h
        simp
        omega
  | _ => cases h

theorem record?_eq_some {values : List (Option Json)} :
    record? names j = some values ↔
      names.length = values.length ∧ IsRecord (names.zip values) j := by
  constructor
  · intro h
    have hlength := (record?_length h).symm
    refine ⟨hlength, ?_⟩
    cases j with
    | object members =>
        refine .object fun f hf => field?_eq_some.mp ?_
        exact List.forall₂_zip (mapM_eq_some_iff.mp h) hf
    | array items =>
        rw [record?] at h
        split at h
        · cases h
        · refine .array (n := names.length - items.length) ?_
          rw [List.map_snd_zip (Nat.le_of_eq hlength.symm)]
          exact (Option.some_inj.mp h).symm
    | _ => cases h
  · rintro ⟨hlength, h | @⟨items, n, h⟩⟩
    · refine mapM_eq_some_iff.mpr (List.forall₂_iff_zip.mpr ⟨hlength, fun {a b} hab => ?_⟩)
      exact field?_eq_some.mpr (h (a, b) hab)
    · rw [List.map_snd_zip (Nat.le_of_eq hlength.symm)] at h
      have hitems : names.length = items.length + n := by
        simpa [h] using hlength
      rw [record?_array hitems, h]

theorem bind_record?_eq_some {α : Type} {read : List (Option Json) → Option α} {x : α} :
    (record? names j).bind read = some x ↔
      ∃ values, names.length = values.length ∧ IsRecord (names.zip values) j ∧
        read values = some x := by
  simp only [Option.bind_eq_some_iff, record?_eq_some, and_assoc]

/-! ### The first field -/

/-- The value of the first field of a record. -/
def leading? (name : String) : Json → Option Json
  | .object members => (field? members name).join
  | .array items => items.head?
  | _ => none

theorem record?_cons {value : Option Json} {values : List (Option Json)}
    (h : record? (name :: names) j = some (value :: values)) : leading? name j = value := by
  cases j with
  | object members =>
      obtain ⟨hname, -⟩ := List.forall₂_cons.mp (mapM_eq_some_iff.mp h)
      rw [leading?, hname, Option.join_some]
  | array items =>
      rw [record?] at h
      split at h
      · cases h
      · cases items <;> cases h <;> rfl
  | _ => cases h

end Json

end PlaneFigure
