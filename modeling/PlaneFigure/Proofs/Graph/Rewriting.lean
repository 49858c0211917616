import PlaneFigure.Proofs.Graph.Folding
import PlaneFigure.Proofs.Graph.Traversal

/-!
Simplification by recursion. A formula is rewritten after its operands, the left one first, and what
has been rewritten is looked up when it is met again. Whatever the sharing, this takes one step for
each node, in an order in which children come first; the order of the walk is another one, so both
record the same expressions.
-/

namespace PlaneFigure.Graph

variable {R : Type} [Number R] {g : Graph R} {how : RuleSet} {f : Formula R} {i n : Nat}
  {s : List Nat}

/-- The state of the recursion: the nodes that were rewritten, what they have become, and the
graph. -/
structure Memo (R : Type) where
  keys : List Nat
  done : Array Nat
  graph : Graph R

/-- Simplify node `i`, and remember what it has become. -/
def Memo.record (how : RuleSet) (i : Nat) (m : Memo R) : Memo R :=
  let (done, graph) := simplifyStep how (m.done, m.graph) i
  ⟨m.keys ++ [i], done, graph⟩

/-- What a formula has become. -/
def Memo.formula (m : Memo R) (f : Formula R) : Formula R := ⟨m.done.getD f.root f.root⟩

/-- Rewrite node `i`, unless it was rewritten before. Only children that are earlier entries are
followed, which all children are in a well-formed graph. -/
def rewrite (how : RuleSet) (i : Nat) (m : Memo R) : Memo R :=
  if i ∈ m.keys then m
  else
    ((m.graph.children i).foldl (fun m c => if _h : c < i then rewrite how c m else m) m).record
      how i

/-- The recursion from the root of a formula, with nothing rewritten before. -/
def rewriteFormula (how : RuleSet) (f : Formula R) (g : Graph R) : Memo R :=
  rewrite how f.root ⟨[], Array.range (f.root + 1), g⟩

/-- The state after the nodes of a list. -/
def Memo.after (how : RuleSet) (g : Graph R) (n : Nat) (s : List Nat) : Memo R :=
  let (done, graph) := s.foldl (simplifyStep how) (Array.range n, g)
  ⟨s, done, graph⟩

theorem Memo.record_after : (Memo.after how g n s).record how i = Memo.after how g n (s ++ [i]) := by
  simp only [Memo.record, Memo.after, List.foldl_concat]

/-- Rewriting takes its steps at nodes below the one that it starts from, children first, and
passes over what has been rewritten. -/
def Rewrites (g : Graph R) (n : Nat) (how : RuleSet) (i : Nat) : Prop :=
  ∀ s, g.ChildrenFirst s → (∀ j ∈ s, j < n) →
    ∃ more, rewrite how i (.after how g n s) = .after how g n (s ++ more) ∧
      g.ChildrenFirst (s ++ more) ∧ i ∈ s ++ more ∧ ∀ j ∈ more, g.Reaches i j

/-- Rewriting operands one after the other. -/
theorem rewrite_children {cs : List Nat} (hg : g.WellFormed) (hi : i ≤ n) (hcs : ∀ c ∈ cs, c < i)
    (hrec : ∀ c ∈ cs, Rewrites g n how c) (hs : g.ChildrenFirst s) (hlt : ∀ j ∈ s, j < n) :
    ∃ more, cs.foldl (fun m c => if _h : c < i then rewrite how c m else m) (.after how g n s) =
        .after how g n (s ++ more) ∧
      g.ChildrenFirst (s ++ more) ∧ (∀ c ∈ cs, c ∈ s ++ more) ∧
      ∀ j ∈ more, ∃ c ∈ cs, g.Reaches c j := by
  induction cs generalizing s with
  | nil => exact ⟨[], by simp, by simpa using hs, nofun, nofun⟩
  | cons c cs ih =>
      obtain ⟨hc, hcs⟩ := List.forall_mem_cons.mp hcs
      obtain ⟨hrecc, hrec⟩ := List.forall_mem_cons.mp hrec
      obtain ⟨first, hfirst, hs₁, hmem₁, hreach₁⟩ := hrecc s hs hlt
      have hlt₁ : ∀ j ∈ s ++ first, j < n := by
        intro j hj
        obtain hj | hj := List.mem_append.mp hj
        · exact hlt j hj
        · have hjc := (hreach₁ j hj).le hg
          omega
      obtain ⟨rest, hrest, hs₂, hmem₂, hreach₂⟩ := ih hcs hrec hs₁ hlt₁
      refine ⟨first ++ rest, ?_, ?_, ?_, fun j hj => ?_⟩
      · rw [List.foldl_cons, dif_pos hc, hfirst, hrest, List.append_assoc]
      · rwa [← List.append_assoc]
      · rw [← List.append_assoc]
        exact List.forall_mem_cons.mpr ⟨List.mem_append_left _ hmem₁, hmem₂⟩
      · obtain hj | hj := List.mem_append.mp hj
        · exact ⟨c, .head _, hreach₁ j hj⟩
        · obtain ⟨d, hd, hdj⟩ := hreach₂ j hj
          exact ⟨d, .tail _ hd, hdj⟩

/-- The recursion on a node, from that on its children. -/
theorem rewrites (hg : g.WellFormed) (hn : n ≤ g.size) (how : RuleSet) (hi : i < n) :
    Rewrites g n how i := by
  induction i using Nat.strongRecOn with
  | ind i ih =>
      intro s hs hlt
      rw [rewrite]
      split
      next hmem => exact ⟨[], by simp, by simpa using hs, by simpa [Memo.after] using hmem, nofun⟩
      next hnew =>
        -- what is recorded on top leaves the children of the node as they were
        have hchildren : (Memo.after how g n s).graph.children i = g.children i := by
          have hsim := (Simplifying.start how hg hn).run hn hlt
          have hsame := getElem?_of_le hsim.le (Nat.lt_of_lt_of_le hi hn)
          show (s.foldl (simplifyStep how) (Array.range n, g)).2.children i = _
          rw [children, children, hsame]
        rw [hchildren]
        obtain ⟨more, hfold, hfirst, hmem, hreach⟩ :=
          rewrite_children hg (Nat.le_of_lt hi) (hg i)
            (fun c hc => ih c (hg i c hc) (Nat.lt_trans (hg i c hc) hi)) hs hlt
        have hnot : i ∉ s ++ more := by
          intro hi
          obtain hi | hi := List.mem_append.mp hi
          · exact hnew hi
          · obtain ⟨c, hc, hci⟩ := hreach i hi
            have hlt := hg i c hc
            have hle := hci.le hg
            omega
        refine ⟨more ++ [i], ?_, ?_, by simp, fun j hj => ?_⟩
        · rw [hfold, Memo.record_after, List.append_assoc]
        · rw [← List.append_assoc]
          exact .snoc hfirst hnot hmem
        · obtain hj | hj := List.mem_append.mp hj
          · obtain ⟨c, hc, hcj⟩ := hreach j hj
            exact .head hc hcj
          · rw [List.mem_singleton.mp hj]
            exact .refl g i

/-- All that a formula reaches is rewritten, and nothing twice. -/
theorem rewriteFormula_eq_after (hg : g.WellFormed) (hf : f.root < g.size) (how : RuleSet) :
    ∃ s, rewriteFormula how f g = .after how g (f.root + 1) s ∧ g.ChildrenFirst s ∧
      ∀ i, i ∈ s ↔ g.Reaches f.root i := by
  obtain ⟨s, hrun, hs, hroot, hreach⟩ :=
    rewrites hg hf how (Nat.lt_succ_self _) [] .nil nofun
  exact ⟨s, hrun, hs, fun i => ⟨hreach i, hs.mem_of_reaches hroot⟩⟩

/-- Simplification along the walk is a run of the same steps. -/
theorem simplify_eq_after (how : RuleSet) (f : Formula R) (g : Graph R) :
    let m := Memo.after how g (f.root + 1) (g.order f.root).toList
    simplify how f g = (m.formula f, m.graph) := by
  simp only [Memo.after, Memo.formula, Array.foldl_toList]
  rfl

end PlaneFigure.Graph
