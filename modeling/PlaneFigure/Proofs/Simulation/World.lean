import Mathlib.Data.List.Forall2
import Mathlib.Data.Set.Basic
import PlaneFigure.Graph.Recording
import PlaneFigure.Proofs.Graph.Leaves
import PlaneFigure.Proofs.Graph.Simplify

/-!
Generic code run twice: on numbers, and on formulas that are recorded. The relation between the two
runs is followed from world to world. A world is what has been recorded, with the assignments of the
variables that are still possible; a formula stands for a number if it has that value under all of
them, and still does so in every later world.

Results of a computation are assumed to stand for each other, and operands are shown to, by instance
resolution. So the proof that a function is simulated has the shape of the function: one `bind` for
each of its steps.
-/

namespace PlaneFigure

structure World (R : Type) where
  graph : Graph R
  wellFormed : graph.WellFormed
  assignments : Set (Nat → R)

/-- Later worlds record more, and leave fewer assignments. -/
instance {R : Type} : Preorder (World R) where
  le w w' := w.graph ≤ w'.graph ∧ w'.assignments ⊆ w.assignments
  le_refl w := ⟨le_refl w.graph, subset_rfl⟩
  le_trans _ _ _ h₁ h₂ := ⟨h₁.1.trans h₂.1, h₂.2.trans h₁.2⟩

class Later {R : Type} (w : outParam (World R)) (w' : World R) : Prop where
  le : w ≤ w'

/-- Sine and cosine have their symmetries, unless no assignment is left under which that matters. -/
class World.Symmetric {R : Type} [Number R] (w : World R) : Prop where
  out : w.assignments.Nonempty → TrigSymmetry R

instance (priority := low) World.Symmetric.later {R : Type} [Number R] {w w' : World R}
    [h : Later w w'] [hw : w.Symmetric] : w'.Symmetric :=
  ⟨fun hne => hw.out (hne.mono h.le.2)⟩

/-- What it means that a value made of formulas stands for one made of numbers. -/
class Mirror (R α β : Type) where
  Stands : World R → α → β → Prop
  mono {w w' : World R} {y : α} {x : β} : w ≤ w' → Stands w y x → Stands w' y x

class Stands {R α β : Type} [Mirror R α β] (w : World R) (y : α) (x : β) : Prop where
  out : Mirror.Stands w y x

section Instances

variable {R α β α' β' : Type} [Mirror R α β] [Mirror R α' β'] {w w' : World R}

theorem Stands.mono {y : α} {x : β} (h : Stands w y x) (hle : w ≤ w') : Stands w' y x :=
  ⟨Mirror.mono hle h.out⟩

instance (priority := low) Stands.later {y : α} {x : β} [h : Later w w'] [hs : Stands w y x] :
    Stands w' y x :=
  hs.mono h.le

instance [Number R] : Mirror R (Formula R) R where
  Stands w f x := f.root < w.graph.size ∧ ∀ ρ ∈ w.assignments, w.graph.value ρ f = x
  mono hle hs := ⟨Nat.lt_of_lt_of_le hs.1 (Graph.size_le_of_le hle.1), fun ρ hρ =>
    (Graph.valueAt_of_le hle.1 hs.1).trans (hs.2 ρ (hle.2 hρ))⟩

instance : Mirror R String String where
  Stands _ s s' := s = s'
  mono _ hs := hs

instance {s : String} : Stands w s s := ⟨rfl⟩

instance : Mirror R (α × α') (β × β') where
  Stands w y x := Stands w y.1 x.1 ∧ Stands w y.2 x.2
  mono hle hs := ⟨hs.1.mono hle, hs.2.mono hle⟩

instance {y : α × α'} {x : β × β'} [h : Stands w y x] : Stands w y.1 x.1 := h.out.1

instance {y : α × α'} {x : β × β'} [h : Stands w y x] : Stands w y.2 x.2 := h.out.2

instance {y : α} {x : β} {y' : α'} {x' : β'} [h : Stands w y x] [h' : Stands w y' x'] :
    Stands w (y, y') (x, x') :=
  ⟨h, h'⟩

instance : Mirror R (List α) (List β) where
  Stands w := List.Forall₂ (Stands w)
  mono hle hs := hs.imp fun _ _ h => h.mono hle

instance : Stands w ([] : List α) ([] : List β) := ⟨.nil⟩

instance {y : α} {x : β} {l : List α} {l' : List β} [h : Stands w y x] [hl : Stands w l l'] :
    Stands w (y :: l) (x :: l') :=
  ⟨.cons h hl.out⟩

instance {l m : List α} {l' m' : List β} [hl : Stands w l l'] [hm : Stands w m m'] :
    Stands w (l ++ m) (l' ++ m') :=
  ⟨List.rel_append hl.out hm.out⟩

theorem Stands.length_eq {l : List α} {l' : List β} (h : Stands w l l') : l.length = l'.length :=
  h.out.length_eq

theorem Stands.map_eq {γ : Type} {f : α → γ} {f' : β → γ} {l : List α} {l' : List β}
    (h : Stands w l l') (hf : ∀ y x, Stands w y x → f y = f' x) : l.map f = l'.map f' := by
  have hall : List.Forall₂ (Stands w) l l' := h.out
  clear h
  induction hall with
  | nil => rfl
  | cons h _ ih => rw [List.map_cons, List.map_cons, hf _ _ h, ih]

theorem Stands.forall_mem {l : List α} {l' : List β} {P : α → Prop} (h : Stands w l l')
    (hP : ∀ (y : α) (x : β), Stands w y x → P y) : ∀ y ∈ l, P y := by
  have hall : List.Forall₂ (Stands w) l l' := h.out
  have hboth : List.Forall₂ (fun y x => P y ∧ Stands w y x) l l' :=
    hall.imp fun y x hyx => ⟨hP y x hyx, hyx⟩
  exact ((List.forall₂_and_left ..).mp hboth).1

theorem Stands.of_forall_mem {l : List α} {x : β} (h : ∀ y ∈ l, Stands w y x) :
    Stands w l (l.map fun _ => x) :=
  ⟨List.forall₂_map_right_iff.mpr (List.forall₂_same.mpr h)⟩

theorem Stands.mapIdx {f : Nat → α → α'} {f' : Nat → β → β'} {l : List α} {l' : List β}
    (hl : Stands w l l') (hf : ∀ i y x, Stands w y x → Stands w (f i y) (f' i x)) :
    Stands w (l.mapIdx f) (l'.mapIdx f') := by
  have hall : List.Forall₂ (Stands w) l l' := hl.out
  clear hl
  refine ⟨?_⟩
  induction hall generalizing f f' with
  | nil => exact .nil
  | cons h _ ih =>
      rw [List.mapIdx_cons, List.mapIdx_cons]
      exact .cons (hf 0 _ _ h) (ih fun i => hf (i + 1))

/-- Both fail with the same error, or neither. -/
instance {ε : Type} : Mirror R (Except ε α) (Except ε β) where
  Stands w
    | .ok y, .ok x => Stands w y x
    | .error e, .error e' => e = e'
    | _, _ => False
  mono {_ _ y x} hle hs := by
    cases y <;> cases x
    · exact hs
    · exact hs
    · exact hs
    · exact hs.mono hle

theorem Stands.except_cases {ε : Type} {y : Except ε α} {x : Except ε β} (h : Stands w y x) :
    (∃ e, y = .error e ∧ x = .error e) ∨ ∃ a b, y = .ok a ∧ x = .ok b ∧ Stands w a b := by
  cases y with
  | error e =>
      cases x with
      | error e' => exact .inl ⟨e, rfl, congrArg _ (Eq.symm h.out)⟩
      | ok b => cases h.out
  | ok a =>
      cases x with
      | error e' => cases h.out
      | ok b => exact .inr ⟨a, b, rfl, rfl, h.out⟩

end Instances

/-- Scalars that formulas can stand for: what an operation records stands for its result. -/
class ScalarMirror (R β : Type) [Number R] [Mirror R (Formula R) β] [Scalar β R Unit] : Prop where
  root_lt {w : World R} {y : Formula R} {x : β} (h : Stands w y x) : y.root < w.graph.size
  const {w w' : World R} (c : R) (hle : w ≤ w')
    (hw : w'.graph = (Graph.push (.const c) w.graph).2) :
    Stands w' (Graph.push (.const c) w.graph).1 ((Scalar.const c : StateM Unit β) ()).1
  /-- A variable stands for itself while the assignments give it its initial value. -/
  free {w w' : World R} (i : Nat) (x : R) (hle : w ≤ w')
    (hw : w'.graph = (Graph.push (.var i) w.graph).2) (hx : ∀ ρ ∈ w'.assignments, ρ i = x) :
    Stands w' (Graph.push (.var i) w.graph).1 ((Scalar.free i x : StateM Unit β) ()).1
  unary {w w' : World R} {y : Formula R} {x : β} (op : UnaryOp) (h : Stands w y x) (hle : w ≤ w')
    (hw : w'.graph = (Graph.unary op y w.graph).2) :
    Stands w' (Graph.unary op y w.graph).1 ((Scalar.unary op x : StateM Unit β) ()).1
  binary {w w' : World R} {y z : Formula R} {x u : β} (op : BinaryOp) (h : Stands w y x)
    (h' : Stands w z u) (hle : w ≤ w') (hw : w'.graph = (Graph.binary op y z w.graph).2) :
    Stands w' (Graph.binary op y z w.graph).1 ((Scalar.binary op x u : StateM Unit β) ()).1

/-- Formulas stand for their values. -/
instance {R : Type} [Number R] : ScalarMirror R R where
  root_lt h := h.out.1
  const {w _} c _ hw := ⟨hw ▸ (Graph.push_size ..).symm ▸ Nat.lt_succ_self _, fun _ _ =>
    hw ▸ Graph.const_value w.graph c⟩
  free {w _} i _ _ hw hx := ⟨hw ▸ (Graph.push_size ..).symm ▸ Nat.lt_succ_self _, fun ρ hρ =>
    hw ▸ (Graph.var_value w.graph i).trans (hx ρ hρ)⟩
  unary {w _ _ _} op h hle hw := by
    obtain ⟨hy, hvalue⟩ := h.out
    refine ⟨hw ▸ (Graph.unary_grown w.wellFormed hy).root_lt, fun ρ hρ => ?_⟩
    rw [hw]
    exact (Graph.unary_value hy).trans (congrArg op.apply (hvalue ρ (hle.2 hρ)))
  binary {w _ _ _ _ _} op h h' hle hw := by
    obtain ⟨hy, hvalue⟩ := h.out
    obtain ⟨hz, hvalue'⟩ := h'.out
    refine ⟨hw ▸ (Graph.binary_grown w.wellFormed hy hz).root_lt, fun ρ hρ => ?_⟩
    rw [hw]
    exact (Graph.binary_value hy hz).trans
      (congrArg₂ op.apply (hvalue ρ (hle.2 hρ)) (hvalue' ρ (hle.2 hρ)))

/-- A formula that is simplified stands for the simplified scalar, now and later. -/
class Simplifies {R : Type} (β : Type) [Number R] [Mirror R (Formula R) β] [Scalar β R Unit]
    (w : World R) : Prop where
  out {w₁ w₂ : World R} {y : Formula R} {x : β} (hw : w ≤ w₁) (h : Stands w₁ y x) (hle : w₁ ≤ w₂)
    (hgraph : w₂.graph = (Graph.simplify .trig y w₁.graph).2) :
    Stands w₂ (Graph.simplify .trig y w₁.graph).1 ((Scalar.simplify .trig x : StateM Unit β) ()).1

instance (priority := low) Simplifies.later {R β : Type} [Number R] [Mirror R (Formula R) β]
    [Scalar β R Unit] {w w' : World R} [h : Later w w'] [hw : Simplifies β w] : Simplifies β w' :=
  ⟨fun hle => hw.out (h.le.trans hle)⟩

/-- Simplification keeps the value, so on numbers it is simulated by doing nothing. -/
instance {R : Type} [Number R] {w : World R} [hw : w.Symmetric] : Simplifies R w where
  out {w₁ w₂ y x} hle h hle' hgraph := by
    obtain ⟨hy, hvalue⟩ := h.out
    have hgrown := Graph.simplify_grown .trig w₁.wellFormed hy
    refine ⟨hgraph ▸ hgrown.root_lt, fun ρ hρ => ?_⟩
    have hρ' : ρ ∈ w₁.assignments := hle'.2 hρ
    have hR : RuleSet.trig.Lawful R := hw.out ⟨ρ, hle.2 hρ'⟩
    rw [hgraph]
    exact (Graph.simplify_value hR w₁.wellFormed hy).trans (hvalue ρ hρ')

/-- Two computations, on memories that are related in world `w`, end in a later world with related
memories and with results that stand for each other. -/
def Simulates {R α β σ τ : Type} [Mirror R α β] (T : World R → σ → τ → Prop) (w : World R)
    (rec : StateM σ α) (num : StateM τ β) : Prop :=
  ∀ s t, T w s t → ∃ w', w ≤ w' ∧ T w' (rec s).2 (num t).2 ∧ Stands w' (rec s).1 (num t).1

/-- What is fixed while variables are created: the assignments that are considered, the variables
that were recorded before, and how many there were on the canvas. -/
structure Basis (R : Type) where
  assignments : Set (Nat → R)
  leaves : List Nat
  count : Nat

/-- A world of which no variable is left out. -/
def World.basis {R : Type} (w : World R) : Basis R := ⟨w.assignments, w.graph.leaves, 0⟩

/-- The memory of the one run is the graph of the world, that of the other nothing. The assignments
and the recorded variables are those of a basis. -/
def OnGraph {R : Type} (A : Basis R) (w : World R) (g : Graph R) (_ : Unit) : Prop :=
  w.graph = g ∧ w.assignments = A.assignments ∧ g.leaves = A.leaves

namespace Simulates

section Monad

variable {R α β α' β' σ τ : Type} [Mirror R α β] [Mirror R α' β'] {T : World R → σ → τ → Prop}
  {w : World R}

theorem pure {y : α} {x : β} [h : Stands w y x] : Simulates T w (pure y) (pure x) :=
  fun _ _ hst => ⟨w, le_refl w, hst, h⟩

theorem bind {rec : StateM σ α} {num : StateM τ β} {next : α → StateM σ α'}
    {next' : β → StateM τ β'} (h : Simulates T w rec num)
    (hnext : ∀ {w' : World R} {y : α} {x : β} [Later w w'] [Stands w' y x],
      Simulates T w' (next y) (next' x)) :
    Simulates T w (rec >>= next) (num >>= next') := by
  intro s t hst
  obtain ⟨w₁, hle₁, hst₁, hstands₁⟩ := h s t hst
  have : Later w w₁ := ⟨hle₁⟩
  obtain ⟨w₂, hle₂, hst₂, hstands₂⟩ := @hnext w₁ (rec s).1 (num t).1 this hstands₁ _ _ hst₁
  exact ⟨w₂, hle₁.trans hle₂, hst₂, hstands₂⟩

theorem ite {b b' : Bool} {rec rec' : StateM σ α} {num num' : StateM τ β} (hb : b = b')
    (h : Simulates T w rec num) (h' : Simulates T w rec' num') :
    Simulates T w (if b then rec else rec') (if b' then num else num') := by
  subst hb
  cases b
  · exact h'
  · exact h

theorem mapM {f : α → StateM σ α'} {f' : β → StateM τ β'} {l : List α} {l' : List β}
    [hl : Stands w l l']
    (hf : ∀ {w' : World R} {y : α} {x : β} [Later w w'] [Stands w' y x],
      Simulates T w' (f y) (f' x)) :
    Simulates T w (l.mapM f) (l'.mapM f') := by
  -- every element is met in a later world than the one before
  suffices h : ∀ w₁, w ≤ w₁ → Simulates T w₁ (l.mapM f) (l'.mapM f') from h w (le_refl w)
  have hl : List.Forall₂ (Stands w) l l' := hl.out
  induction hl with
  | nil =>
      intro w₁ _
      rw [List.mapM_nil, List.mapM_nil]
      exact .pure
  | @cons y x l l' hyx _ ih =>
      intro w₁ hle
      have : Later w w₁ := ⟨hle⟩
      have : Stands w₁ y x := hyx.mono hle
      rw [List.mapM_cons, List.mapM_cons]
      exact .bind hf fun {w₂ _ _ h _} => .bind (ih w₂ (hle.trans h.le)) .pure

theorem foldlM {f : α' → α → StateM σ α'} {f' : β' → β → StateM τ β'} {acc : α'} {acc' : β'}
    {l : List α} {l' : List β} [hacc : Stands w acc acc'] [hl : Stands w l l']
    (hf : ∀ {w' : World R} {acc : α'} {acc' : β'} {y : α} {x : β} [Later w w']
      [Stands w' acc acc'] [Stands w' y x], Simulates T w' (f acc y) (f' acc' x)) :
    Simulates T w (l.foldlM f acc) (l'.foldlM f' acc') := by
  suffices h : ∀ w₁ acc acc', w ≤ w₁ → Stands w₁ acc acc' →
      Simulates T w₁ (l.foldlM f acc) (l'.foldlM f' acc') from h w acc acc' (le_refl w) hacc
  have hl : List.Forall₂ (Stands w) l l' := hl.out
  induction hl with
  | nil => exact fun _ _ _ _ _ => .pure
  | @cons y x l l' hyx _ ih =>
      intro w₁ acc acc' hle _
      have : Later w w₁ := ⟨hle⟩
      have : Stands w₁ y x := hyx.mono hle
      rw [List.foldlM_cons, List.foldlM_cons]
      exact .bind hf fun {w₂ _ _ h hacc} => ih w₂ _ _ (hle.trans h.le) hacc

end Monad

/-- The result of a recording, in the world that it leaves. -/
theorem recorded {R α β : Type} [Mirror R α β] {g : Graph R} {hg : g.WellFormed}
    {rec : StateM (Graph R) α} {num : StateM Unit β}
    (h : Simulates (OnGraph (World.basis ⟨g, hg, Set.univ⟩)) ⟨g, hg, Set.univ⟩ rec num)
    {r : α × Graph R} (hr : rec g = r) :
    g ≤ r.2 ∧ ∃ hwf : r.2.WellFormed, Stands ⟨r.2, hwf, Set.univ⟩ r.1 (num ()).1 := by
  subst hr
  obtain ⟨⟨h, hwf, A⟩, hle, ⟨hgraph, hassignments, -⟩, hstands⟩ := h g () ⟨rfl, rfl, rfl⟩
  obtain rfl : h = (rec g).2 := hgraph
  obtain rfl : A = Set.univ := hassignments
  exact ⟨hle.1, hwf, hstands⟩

/-- The value of a recorded formula is the one that is computed in numbers. -/
theorem value_eq {R : Type} [Number R] {g : Graph R} {hg : g.WellFormed} {ρ : Nat → R}
    {rec : StateM (Graph R) (Formula R)} {num : StateM Unit R}
    (h : Simulates (OnGraph (World.basis ⟨g, hg, {ρ}⟩)) ⟨g, hg, {ρ}⟩ rec num) :
    g ≤ (rec g).2 ∧ (rec g).2.value ρ (rec g).1 = (num ()).1 := by
  obtain ⟨w, hle, ⟨hgraph, hassignments, -⟩, hstands⟩ := h g () ⟨rfl, rfl, rfl⟩
  have hvalue := hstands.out.2 ρ (hassignments ▸ rfl)
  have hgrown := hle.1
  rw [hgraph] at hvalue hgrown
  exact ⟨hgrown, hvalue⟩

section Scalars

variable {R β : Type} [Mirror R (Formula R) β] {A : Basis R} {w : World R}
  {y z : Formula R} {x u : β}

/-- A recorded formula that stands for the other result. -/
theorem of_grown {rec : StateM (Graph R) (Formula R)} {num : StateM Unit β}
    (hgrown : Graph.Grown w.graph (rec w.graph).1 (rec w.graph).2)
    (hleaves : (rec w.graph).2.leaves = w.graph.leaves)
    (hstands : ∀ w' : World R, w ≤ w' → w'.graph = (rec w.graph).2 →
      Stands w' (rec w.graph).1 (num ()).1) :
    Simulates (OnGraph A) w rec num := by
  rintro _ _ ⟨rfl, hA, hA'⟩
  let w' : World R := ⟨(rec w.graph).2, hgrown.wellFormed, w.assignments⟩
  have hle : w ≤ w' := ⟨hgrown.le, subset_rfl⟩
  exact ⟨w', hle, ⟨rfl, hA, hleaves.trans hA'⟩, hstands w' hle rfl⟩

variable [Number R] [Scalar β R Unit] [ScalarMirror R β]

theorem const {c : R} :
    Simulates (OnGraph A) w (Scalar.const c : StateM (Graph R) (Formula R))
      (Scalar.const c : StateM Unit β) :=
  of_grown (Graph.push_grown w.wellFormed (by simp [Node.children]))
    (Graph.leaves_push_of_none rfl _) fun _ hle hw => ScalarMirror.const c hle hw

theorem unary {op : UnaryOp} [h : Stands w y x] :
    Simulates (OnGraph A) w (Scalar.unary op y) (Scalar.unary op x) :=
  of_grown (Graph.unary_grown w.wellFormed (ScalarMirror.root_lt h)) (Graph.leaves_unary ..)
    fun _ hle hw => ScalarMirror.unary op h hle hw

theorem binary {op : BinaryOp} [h : Stands w y x] [h' : Stands w z u] :
    Simulates (OnGraph A) w (Scalar.binary op y z) (Scalar.binary op x u) :=
  of_grown (Graph.binary_grown w.wellFormed (ScalarMirror.root_lt h) (ScalarMirror.root_lt h'))
    (Graph.leaves_binary ..) fun _ hle hw => ScalarMirror.binary op h h' hle hw

theorem binaryConst {op : BinaryOp} {c : R} [Stands w y x] :
    Simulates (OnGraph A) w (Scalar.binaryConst op y c) (Scalar.binaryConst op x c) :=
  .bind .const .binary

theorem sum {l : List (Formula R)} {l' : List β} [hl : Stands w l l'] :
    Simulates (OnGraph A) w (Scalar.sum l) (Scalar.sum l') := by
  have hall : List.Forall₂ (Stands w) l l' := hl.out
  cases hall with
  | nil => exact .const
  | @cons y x l l' _ htail =>
      have : Stands w l l' := ⟨htail⟩
      exact .foldlM .binary

theorem simplify [hw : Simplifies β w] [h : Stands w y x] :
    Simulates (OnGraph A) w (Scalar.simplify .trig y) (Scalar.simplify .trig x) :=
  of_grown (Graph.simplify_grown .trig w.wellFormed (ScalarMirror.root_lt h))
    (Graph.leaves_simplify ..) fun _ hle hgraph => hw.out (le_refl w) h hle hgraph

end Scalars

end Simulates

end PlaneFigure
