import Mathlib.Data.Finset.Card
import Mathlib.Data.List.Induction
import Mathlib.Data.String.Basic
import Mathlib.Tactic.SplitIfs
import PlaneFigure.NameMap

/-!
Maps from names. Their names increase strictly; a name that comes again takes the place of the former
one, so a map has as many entries as there are different names.
-/

namespace PlaneFigure.NameMap

variable {α : Type} {m : NameMap α} {name n : String} {x y : α}

def names (m : NameMap α) : List String := m.map (·.1)

/-- The names increase strictly. -/
def Ordered (m : NameMap α) : Prop := m.names.Pairwise (· < ·)

theorem mem_names_put : n ∈ (m.put name x).names ↔ n = name ∨ n ∈ m.names := by
  induction m with
  | nil => simp [put, names]
  | cons e m ih =>
      obtain ⟨k, y⟩ := e
      unfold put
      split
      · simp [names]
      split
      next heq => simp [names, heq]
      next =>
        simp only [names, List.map_cons, List.mem_cons] at ih ⊢
        rw [ih, or_left_comm]

theorem Ordered.put (h : m.Ordered) : (m.put name x).Ordered := by
  induction m with
  | nil => exact List.pairwise_singleton _ _
  | cons e m ih =>
      obtain ⟨k, y⟩ := e
      obtain ⟨hk, hm⟩ := List.pairwise_cons.mp h
      unfold NameMap.put
      split
      next hlt =>
        refine List.pairwise_cons.mpr ⟨fun n hn => ?_, h⟩
        obtain rfl | hn := List.mem_cons.mp hn
        · exact hlt
        · exact lt_trans hlt (hk n hn)
      split
      next heq => exact List.pairwise_cons.mpr ⟨heq ▸ hk, hm⟩
      next hlt hne =>
        refine List.pairwise_cons.mpr ⟨fun n hn => ?_, ih hm⟩
        obtain rfl | hn := mem_names_put.mp hn
        · exact lt_of_le_of_ne (not_lt.mp hlt) (Ne.symm hne)
        · exact hk n hn

/-- A new name is one more entry. -/
theorem put_perm (h : name ∉ m.names) : (m.put name x).Perm ((name, x) :: m) := by
  induction m with
  | nil => exact .refl _
  | cons e m ih =>
      obtain ⟨k, y⟩ := e
      obtain ⟨hne, hm⟩ := not_or.mp (mt List.mem_cons.mpr h)
      unfold put
      rw [if_neg hne]
      split
      · exact .refl _
      exact ((ih hm).cons (k, y)).trans (.swap ..)

section Lookup

variable {κ : Type} [DecidableEq κ] [BEq κ] [LawfulBEq κ]

theorem lookup_cons_ite (n k : κ) (y : α) (m : NameMap α κ) :
    List.lookup n ((k, y) :: m) = if n = k then some y else List.lookup n m := by
  rw [List.lookup_cons]
  by_cases h : n = k
  · rw [beq_iff_eq.mpr h, if_pos h]
  · rw [beq_false_of_ne h, if_neg h]

theorem lookup_put [LT κ] [DecidableLT κ] {m : NameMap α κ} {name n : κ} :
    List.lookup n (m.put name x) = if n = name then some x else List.lookup n m := by
  induction m with
  | nil => exact lookup_cons_ite n name x []
  | cons e m ih =>
      obtain ⟨k, y⟩ := e
      unfold put
      split
      · rw [lookup_cons_ite]
      split
      next heq =>
        rw [lookup_cons_ite, lookup_cons_ite, heq]
        split_ifs <;> rfl
      next hne =>
        rw [lookup_cons_ite, lookup_cons_ite, ih]
        split_ifs with hk hname
        · exact (hne (hname.symm.trans hk)).elim
        all_goals rfl

end Lookup

section Entries

variable {entries : List (String × α)}

theorem ofEntries_concat (entries : List (String × α)) (e : String × α) :
    ofEntries (entries ++ [e]) = (ofEntries entries).put e.1 e.2 :=
  List.foldl_concat ..

theorem ofEntries_ordered (entries : List (String × α)) : (ofEntries entries).Ordered := by
  induction entries using List.reverseRecOn with
  | nil => exact .nil
  | append_singleton entries e ih =>
      rw [ofEntries_concat]
      exact ih.put

theorem mem_names_ofEntries : n ∈ (ofEntries entries).names ↔ n ∈ entries.map (·.1) := by
  induction entries using List.reverseRecOn with
  | nil => exact Iff.rfl
  | append_singleton entries e ih =>
      rw [ofEntries_concat, mem_names_put, ih, List.map_append, List.mem_append, or_comm]
      simp

/-- Of several entries with a name, the last counts. -/
theorem lookup_ofEntries : (ofEntries entries).lookup n = entries.reverse.lookup n := by
  induction entries using List.reverseRecOn with
  | nil => rfl
  | append_singleton entries e ih =>
      rw [ofEntries_concat, lookup_put, ih, List.reverse_append, List.reverse_singleton,
        List.singleton_append]
      exact (lookup_cons_ite n e.1 e.2 _).symm

/-- If no name comes twice, every entry is found under its name. -/
theorem lookup_of_mem (h : (entries.map (·.1)).Nodup) (hx : (n, x) ∈ entries) :
    entries.lookup n = some x := by
  obtain ⟨before, after, rfl⟩ := List.append_of_mem hx
  refine List.lookup_eq_some_iff.mpr ⟨before, after, rfl, fun e he => ?_⟩
  rw [List.map_append, List.nodup_append] at h
  exact bne_iff_ne.mpr fun heq =>
    h.2.2 e.1 (List.mem_map_of_mem he) n List.mem_cons_self heq.symm

theorem lookup_ofEntries_of_mem (h : (entries.map (·.1)).Nodup) (hx : (n, x) ∈ entries) :
    (ofEntries entries).lookup n = some x := by
  rw [lookup_ofEntries]
  refine lookup_of_mem ?_ (List.mem_reverse.mpr hx)
  rw [List.map_reverse, List.nodup_reverse]
  exact h

/-- If no name comes twice, all entries are there. -/
theorem ofEntries_perm (h : (entries.map (·.1)).Nodup) : (ofEntries entries).Perm entries := by
  induction entries using List.reverseRecOn with
  | nil => exact .refl _
  | append_singleton entries e ih =>
      rw [List.map_append, List.map_singleton, List.nodup_append] at h
      obtain ⟨hentries, -, hnew⟩ := h
      rw [ofEntries_concat]
      have hname : e.1 ∉ (ofEntries entries).names := fun hmem =>
        hnew _ (mem_names_ofEntries.mp hmem) _ (List.mem_singleton_self _) rfl
      exact (put_perm hname).trans (((ih hentries).cons e).trans (List.perm_append_singleton e _).symm)

/-- An entry is lost for every name that comes again. -/
theorem length_ofEntries_eq_iff :
    (ofEntries entries).length = entries.length ↔ (entries.map (·.1)).Nodup := by
  refine ⟨fun h => ?_, fun h => (ofEntries_perm h).length_eq⟩
  have hnodup : (ofEntries entries).names.Nodup := (ofEntries_ordered entries).imp ne_of_lt
  have hsame : (entries.map (·.1)).toFinset = (ofEntries entries).names.toFinset := by
    ext n
    rw [List.mem_toFinset, List.mem_toFinset, mem_names_ofEntries]
  have hcard : (entries.map (·.1)).toFinset.card = (entries.map (·.1)).length := by
    rw [hsame, List.toFinset_card_of_nodup hnodup, names, List.length_map, List.length_map, h]
  exact Multiset.toFinset_card_eq_card_iff_nodup.mp hcard

end Entries

end PlaneFigure.NameMap
