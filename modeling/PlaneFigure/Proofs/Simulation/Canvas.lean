import PlaneFigure.Canvas
import PlaneFigure.Proofs.Simulation.World

/-!
Two canvases with the same variables, one of which records formulas. They stay so when variables are
created: the initial value comes from the same source, and later worlds leave the assignments only
that give the variable this value.
-/

namespace PlaneFigure

variable {R α β α' β' : Type}

/-- The assignments that give the variables their current values. -/
def Canvas.admitted {μ : Type} (c : Canvas R μ) : Set (Nat → R) :=
  { ρ | ∀ i v, c.vars[i]? = some v → ρ i = v.value }

theorem Canvas.assignment_mem_admitted {μ : Type} [Number R] (c : Canvas R μ) :
    c.assignment ∈ c.admitted := by
  intro i v hv
  rw [assignment, hv]

/-- The world is what the one canvas records and those assignments of `A` that give its variables
their values. Every variable since then is recorded once, under its number. The other canvas has the
same variables and goes on drawing from the same state. -/
structure OnCanvas (A : Basis R) (w : World R) (c : Canvas R (Graph R)) (d : Canvas R Unit) :
    Prop where
  graph : w.graph = c.memory
  assignments : w.assignments = c.admitted ∩ A.assignments
  leaves : ∃ n, c.vars.size = A.count + n ∧ c.memory.leaves = A.leaves ++ List.range' A.count n
  vars : c.vars = d.vars
  draws : c.draws = d.draws

/-- A canvas as a basis for what is created on it. -/
def Canvas.basis (A : Set (Nat → R)) (c : Canvas R (Graph R)) : Basis R :=
  ⟨A, c.memory.leaves, c.vars.size⟩

theorem OnCanvas.start (A : Set (Nat → R)) (c : Canvas R (Graph R)) (hc : c.memory.WellFormed) :
    OnCanvas (c.basis A) ⟨c.memory, hc, c.admitted ∩ A⟩ c ⟨(), c.vars, c.draws⟩ :=
  ⟨rfl, rfl, ⟨0, rfl, (List.append_nil _).symm⟩, rfl, rfl⟩

/-- A canvas that is reached is itself a basis for what is created after it. -/
theorem OnCanvas.restart {A : Basis R} {w : World R} {c : Canvas R (Graph R)} {d : Canvas R Unit}
    (h : OnCanvas A w c d) : OnCanvas (c.basis A.assignments) w c d :=
  ⟨h.graph, h.assignments, ⟨0, rfl, (List.append_nil _).symm⟩, h.vars, h.draws⟩

namespace Simulates

variable {A : Basis R} {w : World R}

theorem lift [Mirror R α β] {act : StateM (Graph R) α} {num : StateM Unit β}
    (h : ∀ {A}, Simulates (OnGraph A) w act num) :
    Simulates (OnCanvas A) w (liftM act : StateM (Canvas R (Graph R)) α)
      (liftM num : StateM (Canvas R Unit) β) := by
  rintro c d ⟨hgraph, hassignments, ⟨n, hcount, hleaves⟩, hvars, hdraws⟩
  obtain ⟨w', hle, ⟨hgraph', hassignments', hleaves'⟩, hstands⟩ :=
    h (A := w.basis) c.memory () ⟨hgraph, rfl, congrArg Graph.leaves hgraph.symm⟩
  have hsame : (act c.memory).2.leaves = c.memory.leaves :=
    hleaves'.trans (congrArg Graph.leaves hgraph)
  exact ⟨w', hle, ⟨hgraph', hassignments'.trans hassignments, ⟨n, hcount, hsame.trans hleaves⟩,
    hvars, hdraws⟩, hstands⟩

variable [Number R] [Uniform R] [Mirror R (Formula R) β] [Scalar β R Unit] [ScalarMirror R β]

theorem create {name : String} {r : Range R} :
    Simulates (OnCanvas A) w (Canvas.create name r : StateM (Canvas R (Graph R)) (Formula R))
      (Canvas.create name r : StateM (Canvas R Unit) β) := by
  rintro c ⟨_, _, _⟩ ⟨hgraph, hassignments, ⟨n, hcount, hleaves⟩, rfl, rfl⟩
  let c' := (Canvas.create (S := Formula R) name r c).2
  have hgrown : Graph.Grown c.memory ⟨c.memory.size⟩ c'.memory :=
    Graph.push_grown (hgraph ▸ w.wellFormed) (by simp [Node.children])
  have hvars : c'.vars = c.vars.push ⟨name, r, (Draws.next name r c.draws).1⟩ := rfl
  let w' : World R := ⟨c'.memory, hgrown.wellFormed, c'.admitted ∩ A.assignments⟩
  have hle : w ≤ w' := by
    refine ⟨hgraph.le.trans hgrown.le, ?_⟩
    -- what gives all variables their values does so for those from before
    rw [hassignments]
    refine fun ρ hρ => ⟨fun i v hv => ?_, hρ.2⟩
    apply hρ.1 i v
    obtain ⟨hi, rfl⟩ := Array.getElem?_eq_some_iff.mp hv
    rw [hvars, Array.getElem?_push_lt hi]
  have hvalue : ∀ ρ ∈ w'.assignments, ρ c.vars.size = (Draws.next name r c.draws).1 :=
    fun ρ hρ => hρ.1 c.vars.size _ (hvars ▸ Array.getElem?_push_size)
  have hstands := ScalarMirror.free (β := β) c.vars.size _ hle (hgraph ▸ rfl) hvalue
  rw [hgraph] at hstands
  -- the leaf that is recorded is numbered as the variable
  have hleaves' : c'.memory.leaves = A.leaves ++ List.range' A.count (n + 1) := by
    rw [List.range'_concat, ← List.append_assoc, ← hleaves, Nat.one_mul, ← hcount]
    exact Graph.leaves_push (.var c.vars.size) c.memory
  have hcount' : c'.vars.size = A.count + (n + 1) := by
    rw [hvars, Array.size_push, hcount, Nat.add_assoc]
  exact ⟨w', hle, ⟨rfl, rfl, ⟨n + 1, hcount', hleaves'⟩, rfl, rfl⟩, hstands⟩

theorem request {r : VariableRequest R} :
    Simulates (OnCanvas A) w
      (Canvas.request r : StateM (Canvas R (Graph R)) (Except (VariableError R) (Formula R)))
      (Canvas.request r : StateM (Canvas R Unit) (Except (VariableError R) β)) := by
  intro c d hcd
  unfold Canvas.request
  cases r.validate with
  | error e => exact ⟨w, le_refl w, hcd, ⟨rfl⟩⟩
  | ok _ =>
      simp only [← hcd.draws]
      split
      · obtain ⟨w', hle, hcd', hstands⟩ := create (β := β) c d hcd
        exact ⟨w', hle, hcd', ⟨hstands⟩⟩
      · exact ⟨w, le_refl w, hcd, ⟨rfl⟩⟩

end Simulates

/-- The attempts on the two canvases end with the same refusal, or both reach their ends. -/
def Attempts [Mirror R α β] (A : Basis R) (w : World R) (act : Canvas.Attempt R (Graph R) α)
    (num : Canvas.Attempt R Unit β) : Prop :=
  Simulates (OnCanvas A) w act.run num.run

namespace Attempts

variable {A : Basis R} {w : World R}

section Monad

variable [Mirror R α β] [Mirror R α' β']

theorem pure {y : α} {x : β} [h : Stands w y x] : Attempts A w (pure y) (pure x) :=
  fun _ _ hcd => ⟨w, le_refl w, hcd, ⟨h⟩⟩

theorem bind {act : Canvas.Attempt R (Graph R) α} {num : Canvas.Attempt R Unit β}
    {next : α → Canvas.Attempt R (Graph R) α'} {next' : β → Canvas.Attempt R Unit β'}
    (h : Attempts A w act num)
    (hnext : ∀ {w' : World R} {y : α} {x : β} [Later w w'] [Stands w' y x],
      Attempts A w' (next y) (next' x)) :
    Attempts A w (act >>= next) (num >>= next') := by
  change Simulates (OnCanvas A) w (act.run >>= ExceptT.bindCont next)
    (num.run >>= ExceptT.bindCont next')
  refine .bind h fun {w' y x _ hyx} => ?_
  obtain ⟨e, rfl, rfl⟩ | ⟨a, b, rfl, rfl, hab⟩ := hyx.except_cases
  · exact fun _ _ hcd => ⟨w', le_refl w', hcd, ⟨rfl⟩⟩
  · exact hnext

theorem lift {act : StateM (Graph R) α} {num : StateM Unit β}
    (h : ∀ {A}, Simulates (OnGraph A) w act num) :
    Attempts A w (liftM act : Canvas.Attempt R (Graph R) α)
      (liftM num : Canvas.Attempt R Unit β) := by
  intro c d hcd
  obtain ⟨w', hle, hcd', hstands⟩ := Simulates.lift h c d hcd
  exact ⟨w', hle, hcd', ⟨hstands⟩⟩

theorem mapM {γ : Type} {f : γ → Canvas.Attempt R (Graph R) α} {f' : γ → Canvas.Attempt R Unit β}
    (hf : ∀ a {w' : World R} [Later w w'], Attempts A w' (f a) (f' a)) (l : List γ) :
    Attempts A w (l.mapM f) (l.mapM f') := by
  suffices h : ∀ w₁, w ≤ w₁ → Attempts A w₁ (l.mapM f) (l.mapM f') from h w (le_refl w)
  induction l with
  | nil =>
      intro w₁ _
      rw [List.mapM_nil, List.mapM_nil]
      exact .pure
  | cons a l ih =>
      intro w₁ hle
      have : Later w w₁ := ⟨hle⟩
      rw [List.mapM_cons, List.mapM_cons]
      exact .bind (hf a) fun {w₂ _ _ h _} => .bind (ih w₂ (hle.trans h.le)) .pure

end Monad

variable [Number R] [Uniform R] [Mirror R (Formula R) β] [Scalar β R Unit] [ScalarMirror R β]

theorem sample {name : String} {r : Range R} :
    Attempts A w (Canvas.sample name r : Canvas.Attempt R (Graph R) (Formula R))
      (Canvas.sample name r : Canvas.Attempt R Unit β) :=
  Simulates.request

end Attempts

end PlaneFigure
