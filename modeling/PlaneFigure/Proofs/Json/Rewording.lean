import Mathlib.Data.List.Nodup
import Mathlib.Data.List.Perm.Basic
import Mathlib.Logic.Relation
import PlaneFigure.Proofs.Json.Record

/-!
Ways to write one record: other orders of members, members of unknown names, defaults written out,
the array of the fields, other writings of a value. None of them changes the fields that are read,
up to the writing of their values.
-/

namespace PlaneFigure.Json

/-- A field as its record declares it: its name, what it is if it is absent, and which values are
writings of the same. -/
structure Field where
  name : String
  default? : Option Json
  alike : Json → Json → Prop

/-- A field without a default whose values are what they are. -/
def Field.plain (name : String) : Field := ⟨name, none, Eq⟩

/-- Two writings of a record, one of which is obtained from the other in one step. -/
inductive Rewording (fields : List Field) : Json → Json → Prop
  | permute {members members' : List (String × Json)} (h : members.Perm members') :
      Rewording fields (.object members) (.object members')
  | unknown {members : List (String × Json)} {name : String} {value : Json}
      (h : name ∉ fields.map Field.name) :
      Rewording fields (.object members) (.object ((name, value) :: members))
  | default {members : List (String × Json)} {field : Field} {value : Json} (hf : field ∈ fields)
      (hd : field.default? = some value) (h : Holds members field.name none) :
      Rewording fields (.object members) (.object ((field.name, value) :: members))
  | defaultItem {items : List Json} {before after : List Field} {field : Field} {value : Json}
      (hf : fields = before ++ field :: after) (hd : field.default? = some value)
      (h : items.length = before.length) :
      Rewording fields (.array items) (.array (items ++ [value]))
  /-- The fields that an object has are the first ones; they are written as an array. -/
  | array {members : List (String × Json)} {items : List Json} {n : Nat}
      (hlength : fields.length = items.length + n)
      (h : IsRecord ((fields.map Field.name).zip (items.map some ++ List.replicate n none))
        (.object members)) :
      Rewording fields (.object members) (.array items)
  | member {members : List (String × Json)} {field : Field} {value value' : Json}
      (hf : field ∈ fields) (h : field.alike value value') :
      Rewording fields (.object ((field.name, value) :: members))
        (.object ((field.name, value') :: members))
  | item {before after : List Field} {field : Field} {items items' : List Json}
      {value value' : Json} (hf : fields = before ++ field :: after)
      (hlength : items.length = before.length) (h : field.alike value value') :
      Rewording fields (.array (items ++ value :: items')) (.array (items ++ value' :: items'))

/-- Two contents of a field that mean the same. -/
inductive Field.Matches (field : Field) : Option Json → Option Json → Prop
  | same (value : Option Json) : Matches field value value
  | alike {value value' : Json} (h : field.alike value value') :
      Matches field (some value) (some value')
  | default {value : Json} (h : field.default? = some value) : Matches field none (some value)

/-- Contents of all fields that mean the same. -/
inductive Matching : List Field → List (Option Json) → List (Option Json) → Prop
  | nil : Matching [] [] []
  | cons {field : Field} {fields : List Field} {value value' : Option Json}
      {values values' : List (Option Json)} (h : field.Matches value value')
      (hs : Matching fields values values') :
      Matching (field :: fields) (value :: values) (value' :: values')

namespace Matching

variable {fields : List Field} {values values' : List (Option Json)}

theorem refl (h : values.length = fields.length) : Matching fields values values := by
  induction fields generalizing values with
  | nil => rw [List.eq_nil_of_length_eq_zero h]; exact nil
  | cons field fields ih =>
      obtain ⟨value, values, rfl⟩ := List.exists_cons_of_length_eq_add_one h
      exact cons (.same value) (ih (Nat.succ.inj h))

/-- One field may be written otherwise. -/
theorem at_field {before after : List Field} {field : Field} {vs ws : List (Option Json)}
    {value value' : Option Json} (hvs : vs.length = before.length) (hws : ws.length = after.length)
    (h : field.Matches value value') :
    Matching (before ++ field :: after) (vs ++ value :: ws) (vs ++ value' :: ws) := by
  induction before generalizing vs with
  | nil => rw [List.eq_nil_of_length_eq_zero hvs]; exact cons h (refl hws)
  | cons field before ih =>
      obtain ⟨v, vs, rfl⟩ := List.exists_cons_of_length_eq_add_one hvs
      exact cons (.same v) (ih (Nat.succ.inj hvs))

end Matching

/-! ### Fields of reworded records -/

variable {members members' : List (String × Json)} {name : String} {fields : List Field}

theorem Holds.perm (h : members.Perm members') {value : Option Json}
    (hvalue : Holds members name value) : Holds members' name value := by
  have hfilter : (members'.filter (·.1 = name)).Perm (value.toList.map (name, ·)) :=
    (h.filter _).symm.trans (.of_eq hvalue)
  cases value with
  | none => exact hfilter.eq_nil
  | some v => exact List.perm_singleton.mp hfilter

theorem field?_perm (h : members.Perm members') (name : String) :
    field? members name = field? members' name :=
  Option.ext fun _ => field?_eq_some.trans
    (Iff.trans ⟨.perm h, .perm h.symm⟩ field?_eq_some.symm)

theorem field?_cons_of_ne {m : String × Json} (h : m.1 ≠ name) :
    field? (m :: members) name = field? members name := by
  rw [field?, occurrence, List.filter_cons_of_neg (by simpa using h)]
  rfl

theorem field?_cons_of_absent (h : Holds members name none) (value : Json) :
    field? ((name, value) :: members) name = some (some value) := by
  refine field?_eq_some.mpr ?_
  rw [Holds, List.filter_cons_of_pos (by simp), show members.filter (·.1 = name) = [] from h]
  rfl

theorem field?_cons_of_present (h : ¬Holds members name none) (value : Json) :
    field? ((name, value) :: members) name = none := by
  rw [field?, occurrence, List.filter_cons_of_pos (by simp)]
  rcases hfilter : members.filter (·.1 = name) with _ | ⟨m, ms⟩
  · exact absurd hfilter h
  · rw [hfilter]

/-- Fields that mean the same one by one mean the same together. -/
theorem record?_object_rel (h : ∀ field ∈ fields,
      Option.Rel field.Matches (field? members field.name) (field? members' field.name)) :
    Option.Rel (Matching fields) (record? (fields.map Field.name) (.object members))
      (record? (fields.map Field.name) (.object members')) := by
  induction fields with
  | nil => exact .some .nil
  | cons field fields ih =>
      obtain ⟨hfield, hfields⟩ := List.forall_mem_cons.mp h
      have ih := ih hfields
      simp only [record?, List.map_cons, List.mapM_cons] at ih ⊢
      generalize field? members field.name = value, field? members' field.name = value' at hfield
      generalize (fields.map Field.name).mapM (field? members) = values,
        (fields.map Field.name).mapM (field? members') = values' at ih
      cases hfield with
      | none => exact .none
      | some hfield =>
          cases ih with
          | none => exact .none
          | some ih => exact .some (.cons hfield ih)

theorem rel_of_eq {field : Field} {a b : Option (Option Json)} (h : a = b) :
    Option.Rel field.Matches a b := by
  subst h
  cases a with
  | none => exact .none
  | some value => exact .some (.same value)

/-- What the array form of a record holds beside one of its items does not depend on that item. -/
theorem record?_array_item {before : List Field} {items : List Json}
    (hlength : items.length = before.length) (field : Field) (after : List Field)
    (items' : List Json) :
    ∃ rest, (∀ v,
        record? ((before ++ field :: after).map Field.name) (.array (items ++ v :: items')) =
          rest.map fun values => items.map some ++ some v :: values) ∧
      ∀ values, rest = some values → values.length = after.length := by
  by_cases hmore : after.length < items'.length
  · refine ⟨none, fun v => ?_, by rintro _ ⟨⟩⟩
    rw [record?, if_pos (by simp [hlength]; omega)]
    rfl
  · refine ⟨some (items'.map some ++ List.replicate (after.length - items'.length) none),
      fun v => ?_, ?_⟩
    · rw [record?_array (n := after.length - items'.length) (by simp [hlength]; omega)]
      simp
    · rintro _ ⟨⟩
      simp
      omega

theorem Rewording.record? {j j' : Json} (hnames : (fields.map Field.name).Nodup)
    (h : Rewording fields j j') :
    Option.Rel (Matching fields) (record? (fields.map Field.name) j)
      (record? (fields.map Field.name) j') := by
  have hinj : ∀ f ∈ fields, ∀ g ∈ fields, f.name = g.name → f = g := fun f hf g hg =>
    List.inj_on_of_nodup_map hnames hf hg
  cases h with
  | permute h => exact record?_object_rel fun f _ => rel_of_eq (field?_perm h f.name)
  | unknown h =>
      refine record?_object_rel fun f hf => rel_of_eq (field?_cons_of_ne ?_).symm
      rintro rfl
      exact h (List.mem_map_of_mem hf)
  | @default members field value hfield hd h =>
      refine record?_object_rel fun f hf => ?_
      by_cases hname : field.name = f.name
      · obtain rfl := hinj field hfield f hf hname
        rw [field?_eq_some.mpr h, field?_cons_of_absent h]
        exact .some (.default hd)
      · exact rel_of_eq (field?_cons_of_ne hname).symm
  | @member members field value value' hfield h =>
      refine record?_object_rel fun f hf => ?_
      by_cases hname : field.name = f.name
      · obtain rfl := hinj field hfield f hf hname
        by_cases habsent : Holds members field.name none
        · rw [field?_cons_of_absent habsent, field?_cons_of_absent habsent]
          exact .some (.alike h)
        · rw [field?_cons_of_present habsent, field?_cons_of_present habsent]
          exact .none
      · rw [field?_cons_of_ne hname, field?_cons_of_ne hname]
        exact rel_of_eq rfl
  | @array members items n hlength h =>
      have hnames : (fields.map Field.name).length = items.length + n := by
        rw [List.length_map, hlength]
      rw [record?_eq_some.mpr ⟨by simpa using hlength, h⟩, record?_array hnames]
      exact .some (Matching.refl (by simp [hlength]))
  | @defaultItem items before after field value hf hd h =>
      have hlength : (fields.map Field.name).length = items.length + (after.length + 1) := by
        simp [hf, h]
      rw [record?_array hlength, record?_array (n := after.length) (by simp [hlength]; omega), hf,
        List.map_append, List.append_assoc]
      exact .some (Matching.at_field (by simpa using h) (by simp) (.default hd))
  | @item before after field items items' value value' hf hlength h =>
      obtain ⟨rest, hrecord, hrest⟩ := record?_array_item hlength field after items'
      rw [hf, hrecord, hrecord]
      cases rest with
      | none => exact .none
      | some rest =>
          exact .some (Matching.at_field (by simpa using hlength) (hrest rest rfl) (.alike h))

/-- What is read of a record is not changed by a rewording if it is not by the writing of a
field. -/
theorem Rewording.bind_eq {α : Type} {read : List (Option Json) → Option α} {j j' : Json}
    (hnames : (fields.map Field.name).Nodup)
    (hread : ∀ values values', Matching fields values values' → read values = read values')
    (h : Rewording fields j j') :
    (Json.record? (fields.map Field.name) j).bind read =
      (Json.record? (fields.map Field.name) j').bind read := by
  have hrel := h.record? hnames
  generalize Json.record? (fields.map Field.name) j = r,
    Json.record? (fields.map Field.name) j' = r' at hrel
  cases hrel with
  | none => rfl
  | some hvalues => exact hread _ _ hvalues

/-- A first field without a default stays as it is. -/
theorem Rewording.leading? {j j' : Json} (hname : name ∉ fields.map Field.name)
    (h : Rewording (.plain name :: fields) j j') : leading? name j = leading? name j' := by
  have hne : ∀ f ∈ fields, f.name ≠ name := fun f hf hf' => hname (hf' ▸ List.mem_map_of_mem hf)
  cases h with
  | permute h => rw [Json.leading?, Json.leading?, field?_perm h]
  | unknown h =>
      have hne : _ ≠ name := fun h' => h (h' ▸ List.mem_cons_self)
      rw [Json.leading?, Json.leading?, field?_cons_of_ne hne]
  | default hf hd h =>
      obtain rfl | hf := List.mem_cons.mp hf
      · cases hd
      · rw [Json.leading?, Json.leading?, field?_cons_of_ne (hne _ hf)]
  | member hf h =>
      obtain rfl | hf := List.mem_cons.mp hf
      · rw [show _ = _ from h]
      · rw [Json.leading?, Json.leading?, field?_cons_of_ne (hne _ hf),
          field?_cons_of_ne (hne _ hf)]
  | @array members items n hlength h =>
      have hobject : Json.record? (name :: fields.map Field.name) (.object members) =
          some (items.map some ++ List.replicate n none) :=
        record?_eq_some.mpr ⟨by simpa using hlength, h⟩
      cases items with
      | nil =>
          obtain rfl : n = fields.length + 1 := by simpa using hlength.symm
          exact record?_cons hobject
      | cons value items => exact record?_cons hobject
  | @defaultItem items before after field value hf hd h =>
      cases before with
      | nil =>
          obtain ⟨rfl, -⟩ := List.cons.inj hf
          cases hd
      | cons first before =>
          obtain ⟨item, items, rfl⟩ := List.exists_cons_of_length_eq_add_one h
          rfl
  | @item before after field items items' value value' hf hlength h =>
      cases before with
      | nil =>
          obtain ⟨rfl, -⟩ := List.cons.inj hf
          rw [show value = value' from h]
      | cons first before =>
          obtain ⟨item, items, rfl⟩ := List.exists_cons_of_length_eq_add_one hlength
          rfl

end PlaneFigure.Json
