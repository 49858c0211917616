import PlaneFigure.Files.Tree
import PlaneFigure.Proofs.Files.Path
import PlaneFigure.Proofs.NameMap

/-!
Writing files. A file is written only where a name leads to in a directory. It can be read there
afterwards, all paths lead where they led before, and what has another name in the directory is as
it was.
-/

namespace PlaneFigure

namespace Entry

variable {e e' new : Entry} {entries : List (Bytes × Entry)} {l : Location} {name n : Bytes}

theorem at?_append (e : Entry) (l l' : Location) :
    e.at? (l ++ l') = (e.at? l).bind (·.at? l') := by
  induction l generalizing e with
  | nil => simp [at?]
  | cons n l ih =>
      cases e with
      | file content => simp [at?]
      | directory entries =>
          cases hn : entries.lookup n with
          | none => simp [at?, hn]
          | some e => simp [at?, hn, ih e]

theorem isDirectory_iff : e.isDirectory = true ↔ ∃ entries, e = directory entries := by
  cases e <;> simp [isDirectory]

/-- A location below an entry leads through directories. -/
theorem isDirectory_of_at? (h : e.at? (l ++ [n]) = some e') : (e.at? l).any isDirectory := by
  rw [at?_append] at h
  obtain ⟨d, hd, hn⟩ := Option.bind_eq_some_iff.mp h
  cases d with
  | file content => simp [at?] at hn
  | directory entries => simp [hd, isDirectory]

/-- A location of a directory begins in one. -/
theorem exists_of_isDirectory (h : (e.at? (n :: l)).any isDirectory) :
    ∃ entries d, e = directory entries ∧ entries.lookup n = some d ∧ (d.at? l).any isDirectory := by
  cases e with
  | file content => simp [at?] at h
  | directory entries =>
      cases hn : entries.lookup n with
      | none => simp [at?, hn] at h
      | some d => exact ⟨entries, d, rfl, hn, by simpa [at?, hn] using h⟩

theorem any_isDirectory_file (x : Bytes) (l : Location) :
    ((file x).at? l).any isDirectory = false := by
  cases l <;> simp [at?, isDirectory]

/-- What is found in a directory after something was put there. -/
theorem at?_put (hl : (e.at? l).any isDirectory) (new : Entry) (name n : Bytes) :
    (put new (l ++ [name]) e).at? (l ++ [n]) = if n = name then some new else e.at? (l ++ [n]) := by
  induction l generalizing e with
  | nil =>
      obtain ⟨entries, rfl⟩ := isDirectory_iff.mp (by simpa [at?] using hl)
      simp only [List.nil_append, put, at?, NameMap.lookup_put]
      split <;> simp
  | cons m l ih =>
      obtain ⟨entries, d, rfl, hm, hd⟩ := exists_of_isDirectory hl
      simp only [List.cons_append, put, at?, NameMap.lookup_put, hm, if_pos, Option.getD_some,
        Option.bind_some]
      exact ih hd

/-- A file in place of no directory leaves all directories where they are. -/
theorem isDirectory_put_file (hl : (e.at? l).any isDirectory)
    (hn : (e.at? (l ++ [name])).any isDirectory = false) (x : Bytes) (l' : Location) :
    ((put (file x) (l ++ [name]) e).at? l').any isDirectory = (e.at? l').any isDirectory := by
  induction l generalizing e l' with
  | nil =>
      obtain ⟨entries, rfl⟩ := isDirectory_iff.mp (by simpa [at?] using hl)
      cases l' with
      | nil => simp [put, at?, isDirectory]
      | cons m rest =>
          simp only [List.nil_append, put, at?, NameMap.lookup_put]
          split
          next heq =>
            subst heq
            -- neither below the file nor below what it replaces is there a directory
            rw [Option.bind_some, any_isDirectory_file]
            simp only [List.nil_append, at?] at hn
            cases hm : entries.lookup m with
            | none => rfl
            | some d =>
                cases d with
                | file y => exact (any_isDirectory_file y rest).symm
                | directory es => simp [hm, isDirectory] at hn
          next => rfl
  | cons m l ih =>
      obtain ⟨entries, d, rfl, hm, hd⟩ := exists_of_isDirectory hl
      have hdn : (d.at? (l ++ [name])).any isDirectory = false := by
        simpa [at?, hm] using hn
      cases l' with
      | nil => simp [put, at?, isDirectory]
      | cons k rest =>
          simp only [List.cons_append, put, at?, NameMap.lookup_put, hm, Option.getD_some]
          split
          next heq =>
            rw [heq, hm, Option.bind_some, Option.bind_some]
            exact ih hd hdn rest
          next => rfl

end Entry

namespace FileTree

open PlaneFigure.Path

variable {t t' : FileTree} {p q : Path} {l l' dir : Location} {cs c x y name n : Bytes}

/-! ### Where a path leads -/

/-- Where what stands between slashes leads from a directory. -/
def lead (t : FileTree) (l : Location) (cs : Bytes) : Option Location := (split cs).foldlM t.step l

theorem lead_append_slash (t : FileTree) (l : Location) (a b : Bytes) :
    t.lead l (a ++ slash :: b) = (t.lead l a).bind (t.lead · b) := by
  rw [lead, split_append_slash, List.foldlM_append]
  rfl

theorem lead_of_not_mem (t : FileTree) (l : Location) (hc : slash ∉ c) :
    t.lead l c = t.step l c := by
  simp [lead, split_of_not_mem hc]

theorem lead_nil (t : FileTree) (l : Location) : t.lead l [] = t.step l [] :=
  t.lead_of_not_mem l List.not_mem_nil

/-- An empty component leads nowhere else. -/
theorem step_empty_bind (t : FileTree) (l : Location) (component : Bytes) :
    (t.step l []).bind (t.step · component) = t.step l component := by
  cases h : t.isDirectory l <;> simp [step, h]

theorem step_dot_bind (t : FileTree) (l : Location) (component : Bytes) :
    (t.step l [dot]).bind (t.step · component) = t.step l component := by
  cases h : t.isDirectory l <;> simp [step, h]

theorem lead_append (t : FileTree) (l : Location) (hfront : IsFront cs) (hc : slash ∉ c) :
    t.lead l (cs ++ c) = (t.lead l cs).bind (t.step · c) := by
  obtain rfl | ⟨a, rfl⟩ := hfront
  · rw [List.nil_append, lead_nil, step_empty_bind, lead_of_not_mem t l hc]
  · rw [List.append_assoc, List.singleton_append, lead_append_slash, lead_append_slash,
      Option.bind_assoc]
    refine congrArg _ (funext fun d => ?_)
    rw [lead_nil, step_empty_bind, lead_of_not_mem t d hc]

/-- A slash at the end is followed by nothing. -/
theorem lead_append_end (t : FileTree) (l : Location) (cs : Bytes) :
    t.lead l (cs ++ [slash]) = (t.lead l cs).bind (t.step · []) := by
  rw [lead_append_slash]
  simp only [lead_nil]

theorem lead_slash (t : FileTree) (l : Location) (hfront : IsFront cs) :
    t.lead l (cs ++ [slash]) = t.lead l cs := by
  rw [lead_append_end, ← lead_append t l hfront List.not_mem_nil, List.append_nil]

/-- A dot after a slash leads nowhere else. -/
theorem lead_dot (t : FileTree) (l : Location) (hfront : IsFront cs) :
    t.lead l (cs ++ [dot] ++ [slash]) = t.lead l (cs ++ [slash]) := by
  calc t.lead l (cs ++ [dot] ++ [slash])
      = ((t.lead l cs).bind (t.step · [dot])).bind (t.step · []) := by
        rw [lead_append_end, lead_append t l hfront (by decide)]
    _ = (t.lead l cs).bind (t.step · []) := by
        rw [Option.bind_assoc]
        simp only [step_dot_bind]
    _ = t.lead l (cs ++ [slash]) := (lead_append_end t l cs).symm

/-- What is dropped at the end of a directory makes no difference. -/
theorem lead_trimEnd (t : FileTree) (l : Location) (r : Bytes) :
    t.lead l ((trimEnd r).reverse ++ [slash]) = t.lead l (r.reverse ++ [slash]) := by
  induction r with
  | nil => rfl
  | cons c cs ih =>
      rw [trimEnd]
      split
      next h =>
        rw [ih, List.reverse_cons]
        obtain ⟨rfl, -⟩ | ⟨rfl, hhead⟩ := h
        · exact (lead_slash t l (.inr ⟨cs.reverse, rfl⟩)).symm
        · obtain ⟨rest, rfl⟩ := List.head?_eq_some_iff.mp hhead
          rw [List.reverse_cons]
          exact (lead_dot t l (.inr ⟨rest.reverse, rfl⟩)).symm
      next => rfl

/-- The directory of a path. -/
def directory? (t : FileTree) (p : Path) : Option Location := t.lead (t.start p) p.front

theorem locate?_eq (t : FileTree) (p : Path) :
    t.locate? p =
      if p.isUsable then (t.directory? p).bind (t.step · p.last) else none := by
  rw [directory?, ← lead_append t _ p.isFront_front p.not_mem_last, front_append_last]
  rfl

/-- A sibling is in the same directory. -/
theorem directory?_sibling (t : FileTree) (hp : IsName p.last) (hname : IsName name) :
    t.directory? (p.sibling name) = t.directory? p := by
  have hasFront : ∀ l,
      t.lead l (asFront p.directoryBytes) = t.lead l (p.directoryBytes ++ [slash]) := by
    intro l
    have hfront := isFront_asFront p.directoryBytes
    unfold asFront at hfront ⊢
    split at hfront
    next h => rw [if_pos h, lead_slash t l hfront]
    next h => rw [if_neg h]
  have hstart : t.start (p.sibling name) = t.start p := by
    rw [start, start, sibling_isAbsolute hp hname]
  rw [directory?, directory?, hstart, (sibling_front_last hp hname.noSlash).1, hasFront,
    directoryBytes, lead_trimEnd, List.reverse_reverse, lead_slash t _ p.isFront_front]

/-! ### Writing -/

theorem isDirectory_dropLast (h : t.isDirectory l) : t.isDirectory l.dropLast := by
  obtain rfl | ⟨front, n, rfl⟩ := l.eq_nil_or_concat
  · exact h
  · rw [List.concat_eq_append] at h ⊢
    rw [List.dropLast_concat]
    obtain ⟨e, he, -⟩ := (Option.any_eq_true ..).mp h
    exact Entry.isDirectory_of_at? he

/-- A component that leads to something other than a directory is a name in one. -/
theorem step_eq_some (h : t.step l c = some l') (hl' : t.isDirectory l' = false)
    (hc : slash ∉ c) : IsName c ∧ t.isDirectory l ∧ l' = l ++ [c] := by
  unfold step at h
  split at h
  · cases h
  next hdirectory =>
    have hl : t.isDirectory l := by simpa using hdirectory
    split at h
    · cases h
      exact absurd hl (by simp [hl'])
    next hsame =>
      obtain ⟨hempty, hdot⟩ := not_or.mp hsame
      split at h
      · cases h
        exact absurd (isDirectory_dropLast hl) (by simp [hl'])
      next hdots =>
        split at h
        · cases h
        · cases h
          exact ⟨⟨hc, hempty, hdot, hdots⟩, hl, rfl⟩

/-- What is known of a path at which a file was written: it ends with a name, and leads to this name in
a directory. -/
structure Writes (t : FileTree) (p : Path) (x : Bytes) (t' : FileTree) (dir : Location) :
    Prop where
  isName : IsName p.last
  directory : t.directory? p = some dir
  isDirectory : t.isDirectory dir
  located : t.locate? p = some (dir ++ [p.last])
  noDirectory : t.isDirectory (dir ++ [p.last]) = false
  eq_put : t' = t.put (dir ++ [p.last]) (.file x)

theorem writes_of_write? (h : t.write? p x = some t') : ∃ dir, Writes t p x t' dir := by
  obtain ⟨l, hl, hput⟩ := Option.bind_eq_some_iff.mp h
  split at hput
  · cases hput
  next hno =>
    have hno : t.isDirectory l = false := by simpa using hno
    have hlocated := hl
    rw [locate?_eq] at hl
    split at hl
    · obtain ⟨dir, hdir, hstep⟩ := Option.bind_eq_some_iff.mp hl
      obtain ⟨hname, hdirectory, rfl⟩ := step_eq_some hstep hno p.not_mem_last
      exact ⟨dir, hname, hdir, hdirectory, hlocated, hno, (Option.some.inj hput).symm⟩
    · cases hl

namespace Writes

variable (h : Writes t p x t' dir)

include h

theorem isDirectory_eq (l : Location) : t'.isDirectory l = t.isDirectory l := by
  rw [h.eq_put]
  exact Entry.isDirectory_put_file h.isDirectory h.noDirectory x l

theorem lead_eq (l : Location) (cs : Bytes) : t'.lead l cs = t.lead l cs := by
  have hstep : t'.step = t.step := by
    funext l component
    rw [step, step, h.isDirectory_eq]
  rw [lead, lead, hstep]

/-- Paths lead where they led before. -/
theorem directory?_eq (q : Path) : t'.directory? q = t.directory? q := by
  have hworking : t'.working = t.working := by rw [h.eq_put]; rfl
  rw [directory?, directory?, h.lead_eq, start, start, hworking]

theorem locate?_eq (q : Path) : t'.locate? q = t.locate? q := by
  have hstep : t'.step = t.step := by
    funext l component
    rw [step, step, h.isDirectory_eq]
  rw [FileTree.locate?_eq, FileTree.locate?_eq, h.directory?_eq, hstep]

/-- What is in the directory afterwards. -/
theorem entry?_eq (n : Bytes) :
    t'.entry? (dir ++ [n]) =
      if n = p.last then some (.file x) else t.entry? (dir ++ [n]) := by
  rw [h.eq_put]
  exact Entry.at?_put h.isDirectory _ _ n

theorem read?_self : t'.read? p = some x := by
  simp [read?, h.locate?_eq, h.located, h.entry?_eq]

/-- What has another name is as it was. -/
theorem read?_other (hq : t.locate? q = some (dir ++ [n])) (hn : n ≠ p.last) :
    t'.read? q = t.read? q := by
  simp [read?, h.locate?_eq, hq, h.entry?_eq, hn]

end Writes

/-- A file, and then one of another name beside it: both can be read, and each is what was written
there. -/
theorem read?_siblings {t₁ t₂ t₃ : FileTree} (hfirst : t₁.write? p x = some t₂)
    (hname : IsName name) (hne : name ≠ p.last)
    (hsecond : t₂.write? (p.sibling name) y = some t₃) :
    p.fileName? = some p.last ∧ t₃.read? p = some x ∧
      t₃.read? (p.sibling name) = some y ∧
      ∃ dir, t₃.locate? p = some (dir ++ [p.last]) ∧
        t₃.locate? (p.sibling name) = some (dir ++ [name]) := by
  obtain ⟨dir, h₁⟩ := writes_of_write? hfirst
  obtain ⟨dir', h₂⟩ := writes_of_write? hsecond
  have hlast : (p.sibling name).last = name := (sibling_front_last h₁.isName hname.noSlash).2
  have hsame : t₂.directory? (p.sibling name) = some dir := by
    rw [directory?_sibling t₂ h₁.isName hname, h₁.directory?_eq, h₁.directory]
  obtain rfl : dir' = dir := Option.some.inj (h₂.directory.symm.trans hsame)
  have hlocated : t₂.locate? p = some (dir' ++ [p.last]) :=
    (h₁.locate?_eq p).trans h₁.located
  have hother : p.last ≠ (p.sibling name).last := by
    rw [hlast]
    exact hne.symm
  refine ⟨fileName?_eq h₁.isName, ?_, h₂.read?_self, dir', (h₂.locate?_eq p).trans hlocated, ?_⟩
  · rw [h₂.read?_other hlocated hother, h₁.read?_self]
  · rw [h₂.locate?_eq, h₂.located, hlast]

end FileTree

end PlaneFigure
