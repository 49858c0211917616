import Mathlib.Data.List.Basic
import Mathlib.Data.List.TakeWhile
import PlaneFigure.Files.Path
import PlaneFigure.Proofs.Text.Bytes

/-!
Paths as bytes. A path is what stands before its last component, which ends with a slash if it is not
empty, and this component. If the component is a name, the path without it is the directory, and
another name can be put in its place.
-/

namespace PlaneFigure.Path

variable {a b c cs name : Bytes} {p : Path}

/-- The text of a path is all of it just if it is a text. -/
theorem ofString_text (p : Path) : ofString p.text = p ↔ ∃ s, p = ofString s := by
  obtain ⟨bytes⟩ := p
  simp only [ofString, text, mk.injEq]
  exact Bytes.ofString_lossy

/-! ### Components -/

theorem split_ne_nil (cs : Bytes) : split cs ≠ [] := by
  cases cs with
  | nil => simp [split]
  | cons c cs =>
      unfold split
      split
      · simp
      · split <;> simp

/-- A slash is where a path is cut. -/
theorem split_append_slash (a b : Bytes) : split (a ++ slash :: b) = split a ++ split b := by
  induction a with
  | nil => simp [split]
  | cons c a ih =>
      rw [List.cons_append, split, split, ih]
      split
      · rfl
      · cases ha : split a with
        | nil => exact (split_ne_nil a ha).elim
        | cons first rest => rfl

theorem split_of_not_mem (hc : slash ∉ c) : split c = [c] := by
  induction c with
  | nil => rfl
  | cons x c ih =>
      obtain ⟨hx, hc⟩ := not_or.mp (mt List.mem_cons.mpr hc)
      rw [split, if_neg (Ne.symm hx), ih hc]

/-! ### The last component -/

/-- A component that names an entry of the directory before it. -/
structure IsName (c : Bytes) : Prop where
  noSlash : slash ∉ c
  ne_nil : c ≠ []
  ne_dot : c ≠ [dot]
  ne_dots : c ≠ [dot, dot]

/-- What can stand before a component. -/
def IsFront (cs : Bytes) : Prop := cs = [] ∨ ∃ a, cs = a ++ [slash]

/-- The bytes up to the last slash. -/
def front (p : Path) : Bytes := (p.bytes.reverse.dropWhile (· ≠ slash)).reverse

/-- The bytes after the last slash. -/
def last (p : Path) : Bytes := (p.bytes.reverse.takeWhile (· ≠ slash)).reverse

theorem front_append_last (p : Path) : p.front ++ p.last = p.bytes := by
  rw [front, last, ← List.reverse_append, List.takeWhile_append_dropWhile, List.reverse_reverse]

theorem not_mem_last (p : Path) : slash ∉ p.last := by
  intro h
  have := List.mem_takeWhile_imp (List.mem_reverse.mp h)
  simp at this

theorem isFront_front (p : Path) : IsFront p.front := by
  cases hrest : p.bytes.reverse.dropWhile (· ≠ slash) with
  | nil => exact .inl (by rw [front, hrest]; rfl)
  | cons x rest =>
      have hx := List.head?_dropWhile_not (· ≠ slash) p.bytes.reverse
      rw [hrest] at hx
      obtain rfl : x = slash := by simpa using hx
      exact .inr ⟨rest.reverse, by rw [front, hrest, List.reverse_cons]⟩

theorem reverse_ne {x : UInt8} (hx : x ∉ c) : ∀ y ∈ c.reverse, decide (y ≠ x) = true := by
  intro y hy
  exact decide_eq_true fun heq => hx (heq ▸ List.mem_reverse.mp hy)

theorem takeWhile_reverse (hfront : IsFront cs) (hc : slash ∉ c) :
    (cs ++ c).reverse.takeWhile (· ≠ slash) = c.reverse := by
  rw [List.reverse_append, List.takeWhile_append_of_pos (reverse_ne hc)]
  obtain rfl | ⟨a, rfl⟩ := hfront
  · simp
  · simp

theorem dropWhile_reverse (hfront : IsFront cs) (hc : slash ∉ c) :
    (cs ++ c).reverse.dropWhile (· ≠ slash) = cs.reverse := by
  rw [List.reverse_append, List.dropWhile_append_of_pos (reverse_ne hc)]
  obtain rfl | ⟨a, rfl⟩ := hfront
  · rfl
  · simp

/-- There is one way only to take a path apart. -/
theorem front_last_of_bytes (h : p.bytes = cs ++ c) (hfront : IsFront cs) (hc : slash ∉ c) :
    p.front = cs ∧ p.last = c := by
  rw [front, last, h, takeWhile_reverse hfront hc, dropWhile_reverse hfront hc,
    List.reverse_reverse, List.reverse_reverse]
  exact ⟨rfl, rfl⟩

/-! ### Names and directories -/

/-- Nothing is dropped from the end of a path that ends with a name. -/
theorem trimEnd_of_isName (hc : IsName c) (cs : Bytes) :
    trimEnd (cs ++ c).reverse = (cs ++ c).reverse := by
  have hlast : c = c.reverse.reverse := c.reverse_reverse.symm
  rw [List.reverse_append]
  cases hr : c.reverse with
  | nil => exact (hc.ne_nil (List.reverse_eq_nil_iff.mp hr)).elim
  | cons x r =>
      rw [hr] at hlast
      have hx : x ≠ slash := fun heq => hc.noSlash (by simp [hlast, heq])
      cases r with
      | nil =>
          have hdot : x ≠ dot := fun heq => hc.ne_dot (by simp [hlast, heq])
          rw [List.singleton_append, trimEnd]
          simp [hx, hdot]
      | cons y r =>
          have hy : y ≠ slash := fun heq => hc.noSlash (by simp [hlast, heq])
          rw [List.cons_append, List.cons_append, trimEnd]
          simp [hx, hy]

/-- The first byte stays. -/
theorem getLast?_trimEnd (r : Bytes) : (trimEnd r).getLast? = r.getLast? := by
  induction r with
  | nil => rfl
  | cons c cs ih =>
      rw [trimEnd]
      split
      next h =>
        have hne : cs ≠ [] := by
          rintro rfl
          simp at h
        obtain ⟨x, cs, rfl⟩ := List.exists_cons_of_ne_nil hne
        rw [ih, List.getLast?_cons_cons]
      next => rfl

theorem trimmed_eq (h : IsName p.last) : p.trimmed = p.bytes.reverse := by
  rw [trimmed, ← front_append_last, trimEnd_of_isName h]

theorem fileName?_eq (h : IsName p.last) : p.fileName? = some p.last := by
  have hname : (p.trimmed.takeWhile (· ≠ slash)).reverse = p.last := by
    rw [trimmed_eq h, last]
  simp only [fileName?, hname]
  exact if_neg (not_or.mpr ⟨h.ne_nil, not_or.mpr ⟨h.ne_dot, h.ne_dots⟩⟩)

/-- The directory of a path, without what means nothing at its end. -/
def directoryBytes (p : Path) : Bytes := (trimEnd p.front.reverse).reverse

theorem parent?_eq (h : IsName p.last) : p.parent? = some ⟨p.directoryBytes⟩ := by
  have htrimmed : p.trimmed = (p.front ++ p.last).reverse := by
    rw [trimmed_eq h, front_append_last]
  have hnil : p.trimmed ≠ [] := by
    rw [htrimmed]
    simp [h.ne_nil]
  have hroot : p.trimmed ≠ [slash] := by
    intro heq
    have hmem : ∀ x ∈ p.last, x = slash := by
      intro x hx
      have : x ∈ p.trimmed := by
        rw [htrimmed]
        simp [hx]
      simpa [heq] using this
    obtain ⟨x, hx⟩ := List.exists_mem_of_ne_nil _ h.ne_nil
    exact h.noSlash (hmem x hx ▸ hx)
  have hrest : p.trimmed.dropWhile (· ≠ slash) = p.front.reverse := by
    rw [htrimmed, dropWhile_reverse p.isFront_front h.noSlash]
  simp only [parent?, if_neg (not_or.mpr ⟨hnil, hroot⟩), hrest]
  rfl

/-- A directory, as it stands before a component. -/
def asFront (cs : Bytes) : Bytes :=
  if cs = [] ∨ cs.getLast? = some slash then cs else cs ++ [slash]

theorem isFront_asFront (cs : Bytes) : IsFront (asFront cs) := by
  unfold asFront
  split
  next h =>
    obtain rfl | hlast := h
    · exact .inl rfl
    · obtain ⟨a, rfl⟩ := List.getLast?_eq_some_iff.mp hlast
      exact .inr ⟨a, rfl⟩
  next => exact .inr ⟨cs, rfl⟩

theorem inside_bytes (cs name : Bytes) : (inside ⟨cs⟩ name).bytes = asFront cs ++ name := by
  unfold inside asFront
  split <;> simp

/-- A sibling has the other name after the directory. -/
theorem sibling_bytes (h : IsName p.last) (name : Bytes) :
    (p.sibling name).bytes = asFront p.directoryBytes ++ name := by
  simp only [sibling, fileName?_eq h, parent?_eq h]
  exact inside_bytes _ _

theorem sibling_front_last (h : IsName p.last) (hname : slash ∉ name) :
    (p.sibling name).front = asFront p.directoryBytes ∧ (p.sibling name).last = name :=
  front_last_of_bytes (sibling_bytes h name) (isFront_asFront _) hname

/-- A sibling begins where the path begins. -/
theorem sibling_isAbsolute (h : IsName p.last) (hname : IsName name) :
    (p.sibling name).isAbsolute = p.isAbsolute := by
  have hhead : ∀ {c : Bytes}, IsName c → c.head? ≠ some slash := fun hc hhead =>
    hc.noSlash (List.mem_of_head? hhead)
  rw [isAbsolute, isAbsolute, sibling_bytes h, ← p.front_append_last]
  obtain hnil | ⟨a, ha⟩ := p.isFront_front
  · have hdirectory : p.directoryBytes = [] := by
      rw [directoryBytes, hnil]
      rfl
    simp [hdirectory, hnil, asFront, hhead h, hhead hname]
  · -- the directory is not empty, and what was dropped was at its end
    have hfirst : p.directoryBytes.head? = p.front.head? := by
      rw [directoryBytes, List.head?_reverse, getLast?_trimEnd, List.getLast?_reverse]
    have hsome : ∃ x, p.front.head? = some x := by
      rw [ha]
      cases a <;> exact ⟨_, rfl⟩
    obtain ⟨x, hx⟩ := hsome
    have hfront : (asFront p.directoryBytes).head? = some x := by
      unfold asFront
      split
      · exact hfirst.trans hx
      · rw [List.head?_append, hfirst, hx]
        rfl
    rw [List.head?_append, List.head?_append, hfront, hx]
    rfl

/-! ### Stems -/

/-- What stands before the last dot, if this is not nothing. -/
theorem stem_append_dot (ha : a ≠ []) (hb : dot ∉ b) : stem (a ++ dot :: b) = a := by
  have hdrop : (a ++ dot :: b).reverse.dropWhile (· ≠ dot) = dot :: a.reverse := by
    rw [List.reverse_append, List.reverse_cons, List.append_assoc,
      List.dropWhile_append_of_pos (reverse_ne hb)]
    simp
  rw [stem, hdrop]
  cases hr : a.reverse with
  | nil => exact (ha (List.reverse_eq_nil_iff.mp hr)).elim
  | cons x r =>
      show (x :: r).reverse = _
      rw [← hr, List.reverse_reverse]

/-- A stem is the beginning of the name. -/
theorem stem_isPrefix (name : Bytes) : stem name <+: name := by
  unfold stem
  split
  · exact List.prefix_refl _
  · exact List.prefix_refl _
  next x before _ hdrop =>
    rw [← List.reverse_suffix, List.reverse_reverse]
    exact (List.suffix_cons x before).trans (hdrop ▸ List.dropWhile_suffix _)

/-- A name is never its own stem with two more endings: without the last, it would be the stem. -/
theorem stem_append_ne {first second : Bytes} (hsecond : dot ∉ second) (name : Bytes) :
    stem name ++ (dot :: first ++ dot :: second) ≠ name := by
  intro heq
  have hparts : (stem name ++ dot :: first) ++ dot :: second = name := by
    rw [List.append_assoc]
    exact heq
  have hstem : stem name = stem name ++ dot :: first := by
    conv_lhs => rw [← hparts]
    exact stem_append_dot (by simp) hsecond
  simp at hstem

end PlaneFigure.Path
