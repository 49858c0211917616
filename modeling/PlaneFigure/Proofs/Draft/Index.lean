import Mathlib.Data.List.Nodup
import PlaneFigure.Proofs.Draft.Lookup
import PlaneFigure.Proofs.NameMap

/-!
Looking up points through an index. Points are kept in the order in which they were added, together
with a map from their names to their positions. Both grow with every point, without a check; they
agree as long as no name is added twice.
-/

namespace PlaneFigure

variable {S : Type}

/-- Points with an index of their positions. -/
structure IndexedTable (S : Type) where
  entries : Array (String × Point S) := #[]
  index : Std.HashMap String Nat := {}

namespace IndexedTable

/-- Add a point; its name should be new. -/
def insert (t : IndexedTable S) (name : String) (p : Point S) : IndexedTable S :=
  ⟨t.entries.push (name, p), t.index.insert name t.entries.size⟩

def insertAll (t : IndexedTable S) (points : List (String × Point S)) : IndexedTable S :=
  points.foldl (fun t e => t.insert e.1 e.2) t

/-- The point at the position that the index tells. -/
def get? (t : IndexedTable S) (name : String) : Option (Point S) := do
  let i ← t.index[name]?
  let e ← t.entries[i]?
  return e.2

def contains (t : IndexedTable S) (name : String) : Bool := t.index.contains name

/-- A table with the points of another, and an index that tells where each name stands. -/
structure Represents (t : IndexedTable S) (u : PointTable S) : Prop where
  entries : t.entries.toList = u.entries
  index : ∀ (name : String) (i : Nat), t.index[name]? = some i ↔ u.names[i]? = some name

variable {t : IndexedTable S} {u : PointTable S} {name : String}

theorem Represents.insert (h : t.Represents u) (hnew : name ∉ u.names) (p : Point S) :
    (t.insert name p).Represents (u.append [(name, p)]) := by
  have hsize : t.entries.size = u.names.length := by
    rw [PointTable.names, List.length_map, ← h.entries, Array.length_toList]
  refine ⟨?_, fun n i => ?_⟩
  · rw [IndexedTable.insert, Array.toList_push, h.entries]
    rfl
  · have hnames : (u.append [(name, p)]).names = u.names ++ [name] := List.map_append
    rw [hnames, IndexedTable.insert, hsize, Std.HashMap.getElem?_insert]
    obtain rfl | hne := eq_or_ne name n
    · -- the new name stands at the end and nowhere else
      rw [if_pos (beq_self_eq_true name), Option.some.injEq]
      constructor
      · rintro rfl
        exact List.getElem?_concat_length
      · intro hi
        rw [List.getElem?_append] at hi
        split at hi
        · exact (hnew (List.mem_of_getElem? hi)).elim
        next hlt =>
          have := (List.getElem?_eq_some_iff.mp hi).1
          rw [List.length_singleton] at this
          omega
    · rw [if_neg (mt beq_iff_eq.mp hne), h.index, List.getElem?_append]
      split
      · exact Iff.rfl
      next hlt =>
        rw [List.getElem?_eq_none (Nat.not_lt.mp hlt)]
        refine ⟨nofun, fun hi => ?_⟩
        exact (hne (List.mem_singleton.mp (List.mem_of_getElem? hi)).symm).elim

/-- Of points under new and different names, the first may be added, and then the others. -/
theorem nodup_names_cons {e : String × Point S} {points : List (String × Point S)}
    (h : (u.names ++ (e :: points).map (·.1)).Nodup) :
    e.1 ∉ u.names ∧ ((u.append [e]).names ++ points.map (·.1)).Nodup := by
  refine ⟨fun he => (List.nodup_append.mp h).2.2 _ he _ List.mem_cons_self rfl, ?_⟩
  rw [PointTable.append, PointTable.names, List.map_append, List.append_assoc]
  exact h

theorem Represents.insertAll (h : t.Represents u) {points : List (String × Point S)}
    (hnew : (u.names ++ points.map (·.1)).Nodup) :
    (t.insertAll points).Represents (u.append points) := by
  induction points generalizing t u with
  | nil =>
      rw [PointTable.append, List.append_nil]
      exact h
  | cons e points ih =>
      obtain ⟨hname, hrest⟩ := nodup_names_cons hnew
      have happend : u.append (e :: points) = (u.append [e]).append points :=
        congrArg PointTable.mk (List.append_assoc u.entries [e] points).symm
      rw [happend]
      exact ih (h.insert hname e.2) hrest

end IndexedTable

namespace PointTable

variable {t : PointTable S} {name : String} {p : Point S}

/-- The table with an index, the points of which were added one by one. -/
def indexed (t : PointTable S) : IndexedTable S := IndexedTable.insertAll {} t.entries

theorem indexed_append (t : PointTable S) (points : List (String × Point S)) :
    (t.append points).indexed = t.indexed.insertAll points :=
  List.foldl_append

theorem indexed_represents (h : t.names.Nodup) : t.indexed.Represents t := by
  have hempty : IndexedTable.Represents {} ({} : PointTable S) :=
    ⟨rfl, fun name i => by simp [names]⟩
  exact hempty.insertAll h

/-- What is found under a name is an entry with that name, and there is no other one. -/
theorem get?_eq_some_iff (h : t.names.Nodup) : t.get? name = some p ↔ (name, p) ∈ t.entries := by
  refine ⟨fun hlookup => ?_, NameMap.lookup_of_mem h⟩
  obtain ⟨before, after, hentries, -⟩ := List.lookup_eq_some_iff.mp hlookup
  rw [hentries]
  exact List.mem_append_right _ List.mem_cons_self

theorem mem_names_iff : name ∈ t.names ↔ t.contains name = true := by
  rw [contains, List.contains_eq_mem, decide_eq_true_eq]

theorem get_eq_error (e : DraftError) :
    t.get name = .error e ↔ e = .undefinedPoint name ∧ name ∉ t.names := by
  unfold get
  rw [mem_names_iff, Bool.not_eq_true, ← get?_eq_none]
  cases t.get? name with
  | none => exact ⟨fun h => by cases h; exact ⟨rfl, rfl⟩, fun h => by rw [h.1]; rfl⟩
  | some p => exact ⟨nofun, nofun⟩

end PointTable

namespace IndexedTable.Represents

variable {t : IndexedTable S} {u : PointTable S}

/-- There is one position for every name, so no name comes twice. -/
theorem nodup (h : t.Represents u) : u.names.Nodup := by
  refine List.nodup_iff_getElem?_ne_getElem?.mpr fun i j hij hj heq => ?_
  have hi := List.getElem?_eq_getElem hj
  have hindex := (h.index _ i).mpr (heq.trans hi)
  exact Nat.ne_of_lt hij (Option.some.inj (hindex.symm.trans ((h.index _ j).mpr hi)))

theorem contains_eq (h : t.Represents u) (name : String) : t.contains name = u.contains name := by
  rw [Bool.eq_iff_iff, ← PointTable.mem_names_iff, List.mem_iff_getElem?, IndexedTable.contains,
    Std.HashMap.contains_eq_isSome_getElem?, Option.isSome_iff_exists]
  exact exists_congr (h.index name)

/-- Looking up through the index is searching the entries. -/
theorem get?_eq (h : t.Represents u) (name : String) : t.get? name = u.get? name := by
  have hentry : ∀ i : Nat, t.entries[i]? = u.entries[i]? := fun i => by
    rw [← h.entries, ← Array.getElem?_toList]
  unfold IndexedTable.get?
  cases hi : t.index[name]? with
  | none =>
      have hcontains : u.contains name = false := by
        rw [← h.contains_eq, IndexedTable.contains, Std.HashMap.contains_eq_isSome_getElem?, hi]
        rfl
      exact (PointTable.get?_eq_none.mpr hcontains).symm
  | some i =>
      have hposition := (h.index name i).mp hi
      rw [PointTable.names, List.getElem?_map, Option.map_eq_some_iff] at hposition
      obtain ⟨⟨_, p⟩, hp, rfl⟩ := hposition
      change (t.entries[i]? >>= fun e => some e.2) = _
      rw [hentry, hp]
      exact ((PointTable.get?_eq_some_iff h.nodup).mpr (List.mem_of_getElem? hp)).symm

end IndexedTable.Represents

end PlaneFigure
