import Mathlib.Data.List.Basic
import PlaneFigure.Graph.Order

/-!
The order in which a formula is walked: every node once and after all of its children, and the root
among them. The walk is followed entry by entry of its stack. A node whose children have been put on
the stack is open until it is finished; the invariant says that no open node lies below an entry of
a greater number, so a child that is met again is never open below its parent.
-/

namespace PlaneFigure.Graph

variable {R : Type} {g : Graph R}

/-- Nodes without repetition, each after all of its children. -/
inductive ChildrenFirst (g : Graph R) : List Nat → Prop
  | nil : ChildrenFirst g []
  | snoc {l : List Nat} {i : Nat} (hl : ChildrenFirst g l) (hi : i ∉ l)
      (hc : ∀ c ∈ g.children i, c ∈ l) : ChildrenFirst g (l ++ [i])

theorem seen_eq_true {seen : Array Bool} {i : Nat} (hi : i < seen.size)
    (h : seen[i]? ≠ some false) : seen[i]? = some true := by
  rw [Array.getElem?_eq_getElem hi] at h ⊢
  simpa using h

/-- Every child of an open node is finished or waits above it. -/
def Pending (g : Graph R) (stack : List (Nat × Bool)) (order : Array Nat) : Prop :=
  ∀ above i below, stack = above ++ (i, true) :: below →
    ∀ c ∈ g.children i, c ∈ order ∨ ∃ b, (c, b) ∈ above

/-- What holds at every turn of the walk from `root`. -/
structure Walking (g : Graph R) (root : Nat) (stack : List (Nat × Bool)) (seen : Array Bool)
    (order : Array Nat) : Prop where
  finished : ChildrenFirst g order.toList
  seen_of_finished : ∀ i ∈ order, seen[i]? = some true
  seen_of_open : ∀ i, (i, true) ∈ stack → seen[i]? = some true ∧ i ∉ order
  of_seen : ∀ i, seen[i]? = some true → i ∈ order ∨ (i, true) ∈ stack
  descending : stack.Pairwise fun x y => y.2 = true → x.1 < y.1
  pending : Pending g stack order
  inside : ∀ x ∈ stack, x.1 < seen.size
  size : seen.size = root + 1
  root : root ∈ order ∨ ∃ b, (root, b) ∈ stack

namespace Walking

variable {root i : Nat} {stack : List (Nat × Bool)} {seen : Array Bool} {order : Array Nat}

theorem start (root : Nat) :
    Walking g root [(root, false)] (Array.replicate (root + 1) false) #[] where
  finished := .nil
  seen_of_finished := by simp
  seen_of_open := by simp
  of_seen := by grind
  descending := List.pairwise_singleton _ _
  pending := by
    intro above i below h
    cases above <;> simp at h
  inside := by simp
  size := Array.size_replicate
  root := .inr ⟨false, List.mem_singleton_self _⟩

/-- An open node on top of the stack is finished. -/
theorem finish (h : Walking g root ((i, true) :: stack) seen order) :
    Walking g root stack seen (order.push i) where
  finished := by
    rw [Array.toList_push]
    refine .snoc h.finished ?_ fun c hc => ?_
    · simpa using (h.seen_of_open i (List.mem_cons_self ..)).2
    · simpa using h.pending [] i stack rfl c hc
  seen_of_finished := by
    have := h.seen_of_open i (List.mem_cons_self ..)
    have := h.seen_of_finished
    grind
  seen_of_open := by
    intro j hj
    have hlt : i < j := (List.pairwise_cons.mp h.descending).1 _ hj rfl
    obtain ⟨hseen, hnot⟩ := h.seen_of_open j (List.mem_cons_of_mem _ hj)
    grind
  of_seen := by
    intro j hj
    have := h.of_seen j hj
    grind
  descending := (List.pairwise_cons.mp h.descending).2
  pending := by
    intro above j below hstack c hc
    have := h.pending ((i, true) :: above) j below (by rw [hstack]; rfl) c hc
    grind
  inside x hx := h.inside x (List.mem_cons_of_mem _ hx)
  size := h.size
  root := by
    have := h.root
    grind

/-- An entry for a node that was begun before is dropped. -/
theorem skip (hg : g.WellFormed) (h : Walking g root ((i, false) :: stack) seen order)
    (hi : seen[i]? ≠ some false) : Walking g root stack seen order := by
  have hseen := seen_eq_true (h.inside _ (List.mem_cons_self ..)) hi
  have hmem : i ∈ order ∨ (i, true) ∈ stack := by
    have := h.of_seen i hseen
    grind
  have hdescending := (List.pairwise_cons.mp h.descending).2
  refine ⟨h.finished, h.seen_of_finished, fun j hj => h.seen_of_open j (.tail _ hj), ?_,
    hdescending, ?_, fun x hx => h.inside x (.tail _ hx), h.size, ?_⟩
  · intro j hj
    have := h.of_seen j hj
    grind
  · rintro above j below rfl c hc
    obtain hdone | ⟨b, hb⟩ := h.pending ((i, false) :: above) j below rfl c hc
    · exact .inl hdone
    · cases hb with
      | tail _ hb => exact .inr ⟨b, hb⟩
      | head =>
          -- the child is the node itself: finished, or open above its parent
          refine hmem.imp_right fun hopen => ⟨true, ?_⟩
          obtain habove | hbelow := List.mem_append.mp hopen
          · exact habove
          · have hij : i < j := hg j i hc
            have hji := (List.pairwise_cons.mp (List.pairwise_append.mp hdescending).2.1).1
            grind
  · have := h.root
    grind

end Walking

/-- Entries for the children of a node that are not begun yet. -/
def fresh (g : Graph R) (seen : Array Bool) (i : Nat) : List (Nat × Bool) :=
  ((g.children i).filter fun c => seen[c]? = some false).reverse.map (·, false)

theorem mem_fresh {seen : Array Bool} {i : Nat} {x : Nat × Bool} :
    x ∈ g.fresh seen i ↔ x.1 ∈ g.children i ∧ seen[x.1]? = some false ∧ x.2 = false := by
  obtain ⟨c, b⟩ := x
  simp only [fresh, List.mem_map, List.mem_reverse, List.mem_filter, decide_eq_true_eq]
  grind

namespace Walking

variable {root i : Nat} {stack : List (Nat × Bool)} {seen : Array Bool} {order : Array Nat}

/-- An open entry of the stack is none of the entries for children just put on it. -/
theorem fresh_prefix {above below rest : List (Nat × Bool)} {j : Nat}
    (h : g.fresh seen i ++ rest = above ++ (j, true) :: below) :
    ∃ between, above = g.fresh seen i ++ between ∧ rest = between ++ (j, true) :: below := by
  obtain ⟨between, habove, hrest⟩ | ⟨late, hfresh, hbelow⟩ := List.append_eq_append_iff.mp h
  · exact ⟨between, habove, hrest⟩
  · cases late with
    | nil => exact ⟨[], by simpa using hfresh.symm, by simpa using hbelow.symm⟩
    | cons x late =>
        obtain ⟨rfl, -⟩ := by simpa using hbelow
        have hmem : (j, true) ∈ g.fresh seen i := hfresh ▸ by simp
        exact absurd (mem_fresh.mp hmem).2.2 (by simp)

/-- A node that is opened waits for its children: those that were begun before are finished, and the
others are put above it. -/
theorem pending_expand (hg : g.WellFormed) (h : Walking g root ((i, false) :: stack) seen order)
    (hsize : i < seen.size) :
    Pending g (g.fresh (seen.set i true) i ++ (i, true) :: stack) order := by
  intro above j below hstack c hc
  obtain ⟨between, rfl, hbelow⟩ := fresh_prefix hstack
  cases between with
  | nil =>
      obtain ⟨⟨rfl, -⟩, rfl⟩ := by simpa using hbelow
      by_cases hseen : (seen.set i true)[c]? = some false
      · exact .inr ⟨false, by simpa using mem_fresh.mpr ⟨hc, hseen, rfl⟩⟩
      · -- it was begun before, and an open node would be greater than `i`
        left
        have hci : c < i := hg i c hc
        have hlower := (List.pairwise_cons.mp h.descending).1
        have hbegun : seen[c]? = some true := by
          have := seen_eq_true (by simpa using Nat.lt_trans hci hsize) hseen
          grind
        have := h.of_seen c hbegun
        grind
  | cons x between =>
      obtain ⟨rfl, rfl⟩ := by simpa using hbelow
      refine (h.pending ((i, false) :: between) j below rfl c hc).imp_right fun ⟨b, hb⟩ => ?_
      cases hb with
      | head => exact ⟨true, List.mem_append_right _ (.head _)⟩
      | tail _ hb => exact ⟨b, List.mem_append_right _ (.tail _ hb)⟩

/-- A node that was not begun before is opened, and its children that were not begun are put on the
stack above it. -/
theorem expand (hg : g.WellFormed) (h : Walking g root ((i, false) :: stack) seen order)
    (hsize : i < seen.size) (hi : seen[i]? = some false) :
    Walking g root (g.fresh (seen.set i true) i ++ (i, true) :: stack) (seen.set i true) order := by
  obtain ⟨hlower, hdescending⟩ := List.pairwise_cons.mp h.descending
  have hset : ∀ j, (seen.set i true)[j]? = if i = j then some true else seen[j]? :=
    fun j => Array.getElem?_set hsize
  have hchild : ∀ c ∈ g.children i, c < i := hg i
  refine ⟨h.finished, ?_, ?_, ?_, ?_, ?_, ?_, by simpa using h.size, ?_⟩
  · have := h.seen_of_finished
    grind
  · intro j hj
    have := h.seen_of_finished i
    have := h.seen_of_open j
    grind [mem_fresh]
  · intro j hj
    have := h.of_seen j
    grind
  · refine List.pairwise_append.mpr ⟨?_, List.pairwise_cons.mpr ⟨?_, hdescending⟩, ?_⟩
    · apply List.pairwise_of_forall_mem_list
      grind [mem_fresh]
    · exact hlower
    · intro x hx y hy hopen
      have hxi := hchild x.1 (mem_fresh.mp hx).1
      cases hy with
      | head => exact hxi
      | tail _ hy => exact Nat.lt_trans hxi (hlower y hy hopen)
  · exact h.pending_expand hg hsize
  · intro x hx
    have := h.inside x
    grind [mem_fresh]
  · refine h.root.imp_right fun ⟨b, hb⟩ => ?_
    cases hb with
    | head => exact ⟨true, List.mem_append_right _ (.head _)⟩
    | tail _ hb => exact ⟨b, List.mem_append_right _ (.tail _ hb)⟩

/-- The walk ends with nothing left to do. -/
theorem run (hg : g.WellFormed) (h : Walking g root stack seen order) :
    ∃ seen', Walking g root [] seen' (g.walk stack seen order) := by
  fun_induction walk g stack seen order with
  | case1 seen order => exact ⟨seen, h⟩
  | case2 seen order i stack ih => exact ih h.finish
  | case3 seen order i stack hi seen' next ih =>
      exact ih (h.expand hg (Array.getElem?_eq_some_iff.mp hi).1 hi)
  | case4 seen order i stack hi ih => exact ih (h.skip hg hi)

end Walking

theorem order_walking (hg : g.WellFormed) (root : Nat) :
    ∃ seen, Walking g root [] seen (g.order root) :=
  (Walking.start root).run hg

/-- The order of a formula's nodes has no repetitions, and every node is in it after its
children. -/
theorem order_childrenFirst (hg : g.WellFormed) (root : Nat) :
    ChildrenFirst g (g.order root).toList :=
  let ⟨_, h⟩ := order_walking hg root
  h.finished

theorem root_mem_order (hg : g.WellFormed) (root : Nat) : root ∈ (g.order root).toList := by
  obtain ⟨seen, h⟩ := order_walking hg root
  simpa using h.root

theorem le_of_mem_order (hg : g.WellFormed) {root i : Nat} (hi : i ∈ (g.order root).toList) :
    i ≤ root := by
  obtain ⟨seen, h⟩ := order_walking hg root
  have := h.seen_of_finished i (by simpa using hi)
  have := h.size
  grind

end PlaneFigure.Graph
