import Mathlib.Algebra.Group.Nat.Defs
import PlaneFigure.Proofs.Graph.Copy
import PlaneFigure.Proofs.Simulation.Content
import PlaneFigure.Proofs.Simulation.Placement

/-!
How large the formulas of polygons grow. Each coordinate of a vertex depends on both coordinates of
the vertex before. These were simplified independently of each other and share no operation, so every
vertex has coordinates at least twice as large as the one before.
-/

namespace PlaneFigure.Placement

open PlaneFigure.Geometry

section Displacement

variable {S R μ : Type} [Number R] [Scalar S R μ]

/-- The side of a polygon that leads to its next vertex. -/
def displacement (a b : Point S) (t : Turn S) : StateM μ (Point S) := do
  let x ← b.add (← rotate (← Scalar.neg t.angle) (← a.sub b))
  let length ← Scalar.mulConst (← Scalar.addConst t.scale 1.0) gaugeSide
  let factor ← Scalar.div length (← dist x b)
  (← x.sub b).smul factor

theorem displacement_simulates {R β : Type} [Number R] [Mirror R (Formula R) β] [Scalar β R Unit]
    [ScalarMirror R β] {A : Basis R} {w : World R} {a b : Point (Formula R)}
    {a' b' : Point β} {t : Turn (Formula R)} {t' : Turn β} [Stands w a a'] [Stands w b b']
    [Stands w t t'] : Simulates (OnGraph A) w (displacement a b t) (displacement a' b' t') :=
  .bind .unary <| .bind .point_sub <| .bind .rotate <| .bind .point_add <|
    .bind .binaryConst <| .bind .binaryConst <| .bind .dist <| .bind .binary <|
    .bind .point_sub .smul

theorem nextVertex_eq (a b : Point S) (t : Turn S) :
    (nextVertex a b t : StateM μ (Point S)) =
      displacement a b t >>= fun v => b.add v >>= fun p => p.simplify .trig :=
  rfl

end Displacement

section Recorded

variable {R : Type} {g h : Graph R} {p : Point (Formula R)} {t : Turn (Formula R)} {n : Nat}

/-- Both coordinates are recorded. -/
def Inside (g : Graph R) (p : Point (Formula R)) : Prop := p.x.root < g.size ∧ p.y.root < g.size

theorem Inside.of_le (hgh : g ≤ h) (hp : Inside g p) : Inside h p :=
  ⟨Nat.lt_of_lt_of_le hp.1 (Graph.size_le_of_le hgh),
    Nat.lt_of_lt_of_le hp.2 (Graph.size_le_of_le hgh)⟩

/-- The coordinates of a point are recorded on top of `g`. -/
structure Drawn (g : Graph R) (p : Point (Formula R)) (h : Graph R) : Prop where
  le : g ≤ h
  wellFormed : h.WellFormed
  inside : Inside h p

/-- One coordinate after the other. -/
theorem Drawn.of_grown {k : Graph R} {x y : Formula R} (hx : Graph.Grown g x k)
    (hy : Graph.Grown k y h) : Drawn g ⟨x, y⟩ h :=
  ⟨hx.le.trans hy.le, hy.wellFormed,
    Nat.lt_of_lt_of_le hx.root_lt (Graph.size_le_of_le hy.le), hy.root_lt⟩

theorem Drawn.of_le {k : Graph R} (hgh : g ≤ h) (hp : Drawn h p k) : Drawn g p k :=
  ⟨hgh.trans hp.le, hp.wellFormed, hp.inside⟩

theorem inside_of_stands {w : World R} {p' : Point (Content R)} (h : Stands w p p') :
    Inside w.graph p :=
  ⟨h.out.1.out.1, h.out.2.out.1⟩

/-- The angle and the scale are recorded, and the scale reaches a variable. -/
structure Turning (g : Graph R) (t : Turn (Formula R)) : Prop where
  angle : t.angle.root < g.size
  scale : t.scale.root < g.size
  live : g.Live t.scale.root

theorem Turning.of_le (hgh : g ≤ h) (ht : Turning g t) : Turning h t :=
  ⟨Nat.lt_of_lt_of_le ht.angle (Graph.size_le_of_le hgh),
    Nat.lt_of_lt_of_le ht.scale (Graph.size_le_of_le hgh), ht.live.of_le hgh⟩

/-- Each coordinate contains at least `n` operations that the other one need not contain. -/
def Heavy (g : Graph R) (p : Point (Formula R)) (n : Nat) : Prop :=
  ∃ s u : Finset Nat, n ≤ s.card ∧ n ≤ u.card ∧ Disjoint s u ∧
    (∀ j ∈ s, g.Contains p.x.root j) ∧ ∀ j ∈ u, g.Contains p.y.root j

theorem Heavy.of_le (hgh : g ≤ h) (hp : Heavy g p n) : Heavy h p n := by
  obtain ⟨s, u, hs, hu, hsu, hx, hy⟩ := hp
  exact ⟨s, u, hs, hu, hsu, fun j hj => (hx j hj).of_le hgh, fun j hj => (hy j hj).of_le hgh⟩

theorem heavy_zero (g : Graph R) (p : Point (Formula R)) : Heavy g p 0 :=
  ⟨∅, ∅, Nat.zero_le _, Nat.zero_le _, Finset.disjoint_empty_left _, nofun, nofun⟩

end Recorded

/-! ### One vertex after the other -/

variable {R : Type} [Number R] {g h : Graph R} {a b p v : Point (Formula R)} {t : Turn (Formula R)}
  {n : Nat}

/-- Both coordinates of a side contain what either coordinate of the vertex contains where it
begins, and its length reaches a variable if the sampled one does. -/
theorem displacement_content {a b : Point (Content R)} {t : Turn (Content R)}
    {r : Point (Content R) × Unit} (hr : displacement a b t () = r) :
    (t.scale.live → r.1.x.live ∧ r.1.y.live) ∧
      ∀ j ∈ b.x.operations ∪ b.y.operations, j ∈ r.1.x.operations ∧ j ∈ r.1.y.operations := by
  subst hr
  refine ⟨fun h => ?_, fun j hj => ?_⟩
  · -- through the factor, which is a quotient of the length
    exact ⟨.inr (.inl (.inl (.inl h))), .inr (.inl (.inl (.inl h)))⟩
  · -- one coordinate is subtracted, and both are in the distance, the divisor of the factor
    obtain hx | hy := hj
    · exact ⟨.inl (.inr hx), .inr (.inr (.inl (.inl (.inr hx))))⟩
    · exact ⟨.inr (.inr (.inr (.inl (.inr hy)))), .inl (.inr hy)⟩

/-- What is recorded of the side that leads to the next vertex. -/
theorem displacement_spec (hg : g.WellFormed) (ha : Inside g a) (hb : Inside g b)
    (ht : Turning g t) {s u : Finset Nat} (hs : ∀ j ∈ s, g.Contains b.x.root j)
    (hu : ∀ j ∈ u, g.Contains b.y.root j) (hv : displacement a b t g = (v, h)) :
    Drawn g v h ∧ h.Live v.x.root ∧ h.Live v.y.root ∧
      ∀ j ∈ s ∪ u, h.Contains v.x.root j ∧ h.Contains v.y.root j := by
  let w : World R := ⟨g, hg, Set.univ⟩
  let a' : Point (Content R) := ⟨.unknown, .unknown⟩
  let b' : Point (Content R) := ⟨⟨False, s⟩, ⟨False, u⟩⟩
  let t' : Turn (Content R) := ⟨.unknown, ⟨True, ∅⟩⟩
  have : Stands w a a' := ⟨World.stands_unknown ha.1, World.stands_unknown ha.2⟩
  have : Stands w b b' := ⟨⟨hb.1, False.elim, hs⟩, ⟨hb.2, False.elim, hu⟩⟩
  have : Stands w t t' := ⟨World.stands_unknown ht.angle, ⟨ht.scale, fun _ => ht.live, nofun⟩⟩
  have hsim : Simulates (OnGraph w.basis) w (displacement a b t) (displacement a' b' t') :=
    displacement_simulates
  obtain ⟨hle, hwf, hstands⟩ := hsim.recorded hv
  generalize hv' : displacement a' b' t' () = v' at hstands
  obtain ⟨hlive, hoperations⟩ := displacement_content hv'
  obtain ⟨hx, hy⟩ := hstands.out
  obtain ⟨-, hxlive, hxcontains⟩ := hx.out
  obtain ⟨-, hylive, hycontains⟩ := hy.out
  refine ⟨⟨hle, hwf, inside_of_stands hstands⟩, hxlive (hlive trivial).1, hylive (hlive trivial).2,
    fun j hj => ?_⟩
  have hj' : j ∈ b'.x.operations ∪ b'.y.operations := Finset.mem_union.mp hj
  exact ⟨hxcontains j (hoperations j hj').1, hycontains j (hoperations j hj').2⟩

/-- A sum contains what the second summand contains, and itself. -/
theorem sum_contains {l r : Formula R} {s : Finset Nat} (hr : g.Live r.root)
    (hs : ∀ j ∈ s, g.Contains r.root j) :
    ∃ u : Finset Nat, u.card = s.card + 1 ∧
      ∀ j ∈ u, (Graph.binary .add l r g).2.Contains (Graph.binary .add l r g).1.root j := by
  have hop := @Graph.binary_operation R g l r _ .add (.inr hr)
  have hnew : g.size ∉ s := fun h => Nat.lt_irrefl _ (hs _ h).2.lt_size
  refine ⟨insert g.size s, Finset.card_insert_of_notMem hnew, fun j hj => ?_⟩
  obtain rfl | hj := Finset.mem_insert.mp hj
  · exact ⟨hop.1 ▸ .refl _ _, hop.2⟩
  · exact Graph.binary_contains (.inr (hs j hj))

/-- The next vertex contains what the side contains that leads to it, and one operation more. -/
theorem add_contains (hg : g.WellFormed) (hb : Inside g b) (hv : Inside g v)
    (hlive : g.Live v.x.root ∧ g.Live v.y.root) {s : Finset Nat}
    (hs : ∀ j ∈ s, g.Contains v.x.root j ∧ g.Contains v.y.root j) (hp : b.add v g = (p, h)) :
    Drawn g p h ∧ ∃ s₁ s₂ : Finset Nat, s₁.card = s.card + 1 ∧ s₂.card = s.card + 1 ∧
      (∀ j ∈ s₁, h.Contains p.x.root j) ∧ ∀ j ∈ s₂, h.Contains p.y.root j := by
  let x := Graph.binary .add b.x v.x g
  let y := Graph.binary .add b.y v.y x.2
  have hrun : b.add v g = (⟨x.1, y.1⟩, y.2) := rfl
  cases hrun.symm.trans hp
  have hx : Graph.Grown g x.1 x.2 := Graph.binary_grown hg hb.1 hv.1
  have hy : Graph.Grown x.2 y.1 y.2 :=
    Graph.binary_grown hx.wellFormed (hb.of_le hx.le).2 (hv.of_le hx.le).2
  obtain ⟨s₁, hs₁, hcontains₁⟩ := sum_contains (l := b.x) hlive.1 fun j hj => (hs j hj).1
  obtain ⟨s₂, hs₂, hcontains₂⟩ := sum_contains (l := b.y) (hlive.2.of_le hx.le)
    fun j hj => (hs j hj).2.of_le hx.le
  exact ⟨.of_grown hx hy, s₁, s₂, hs₁, hs₂, fun j hj => (hcontains₁ j hj).of_le hy.le, hcontains₂⟩

/-- The coordinates of a point, simplified one after the other, have no operation in common. -/
theorem simplify_heavy (hg : g.WellFormed) (hp : Inside g p) {s u : Finset Nat}
    (hs : ∀ j ∈ s, g.Contains p.x.root j) (hu : ∀ j ∈ u, g.Contains p.y.root j)
    (hns : n ≤ s.card) (hnu : n ≤ u.card) {q : Point (Formula R)}
    (hq : p.simplify .trig g = (q, h)) : Drawn g q h ∧ Heavy h q n := by
  let x := Graph.simplify .trig p.x g
  let y := Graph.simplify .trig p.y x.2
  have hrun : p.simplify .trig g = (⟨x.1, y.1⟩, y.2) := rfl
  cases hrun.symm.trans hq
  have hx : Graph.Grown g x.1 x.2 := Graph.simplify_grown .trig hg hp.1
  have hpy := (hp.of_le hx.le).2
  have hy : Graph.Grown x.2 y.1 y.2 := Graph.simplify_grown .trig hx.wellFormed hpy
  obtain ⟨s', hs', hxcontains⟩ := Graph.simplify_contains hg hp.1 hs
  obtain ⟨u', hu', hycontains⟩ := Graph.simplify_contains hx.wellFormed hpy
    fun j hj => (hu j hj).of_le hx.le
  refine ⟨.of_grown hx hy, s', u', hs' ▸ hns, hu' ▸ hnu, ?_,
    fun j hj => (hxcontains j hj).2.of_le hy.le, fun j hj => (hycontains j hj).2⟩
  -- the second coordinate is recorded after the first
  refine Finset.disjoint_left.mpr fun j hjs hju => ?_
  exact Nat.lt_irrefl j (Nat.lt_of_lt_of_le (hxcontains j hjs).2.2.lt_size (hycontains j hju).1)

/-- A vertex has coordinates more than twice as large as the one before. -/
theorem nextVertex_heavy (hg : g.WellFormed) (ha : Inside g a) (hb : Inside g b)
    (ht : Turning g t) (hn : Heavy g b n) (hp : nextVertex a b t g = (p, h)) :
    Drawn g p h ∧ Heavy h p (2 * n + 1) := by
  obtain ⟨s, u, hs, hu, hdisjoint, hsx, huy⟩ := hn
  have hcard : 2 * n ≤ (s ∪ u).card := by
    rw [Finset.card_union_of_disjoint hdisjoint]
    omega
  rcases hv : (displacement a b t g : Point (Formula R) × Graph R) with ⟨v, g₀⟩
  rcases hq : (b.add v g₀ : Point (Formula R) × Graph R) with ⟨q, g₁⟩
  have hp : q.simplify .trig g₁ = (p, h) := by
    rw [← hp, nextVertex_eq]
    simp only [bind, StateT.bind, hv, hq]
  obtain ⟨hv, hlivex, hlivey, hcontains⟩ := displacement_spec hg ha hb ht hsx huy hv
  obtain ⟨hq, s₁, s₂, hs₁, hs₂, hx, hy⟩ :=
    add_contains hv.wellFormed (hb.of_le hv.le) hv.inside ⟨hlivex, hlivey⟩ hcontains hq
  obtain ⟨hp, hheavy⟩ := simplify_heavy hq.wellFormed hq.inside hx hy (n := 2 * n + 1)
    (by omega) (by omega) hp
  exact ⟨(hp.of_le hq.le).of_le hv.le, hheavy⟩

/-- What is recorded when a walk has ended that came to its second vertex with `2 ^ m - 1`
operations in each coordinate. -/
structure Walked (m : Nat) (g h : Graph R) (v : Walk (Formula R)) : Prop where
  le : g ≤ h
  wellFormed : h.WellFormed
  inside : ∀ p ∈ v.vertices, Inside h p
  lastStart : Inside h v.lastStart
  lastEnd : Inside h v.lastEnd
  heavy : ∀ k p, v.vertices[k + 1]? = some p → Heavy h p (2 ^ (m + k) - 1)

omit [Number R] in
theorem Walked.nil (hg : g.WellFormed) (ha : Inside g a) (hb : Inside g b) {m : Nat}
    (hn : Heavy g b (2 ^ m - 1)) : Walked m g g ⟨[a, b], a, b⟩ := by
  refine ⟨le_refl g, hg, ?_, ha, hb, fun k p hp => ?_⟩
  · simp [ha, hb]
  · cases k with
    | zero =>
        cases hp
        exact hn
    | succ k => cases hp

omit [Number R] in
theorem Walked.cons {k : Graph R} {v : Walk (Formula R)} {m : Nat} (hgk : g ≤ k)
    (ha : Inside k a) (hn : Heavy k b (2 ^ m - 1)) (hb : v.vertices[0]? = some b)
    (hv : Walked (m + 1) k h v) : Walked m g h { v with vertices := a :: v.vertices } := by
  refine ⟨hgk.trans hv.le, hv.wellFormed, List.forall_mem_cons.mpr ⟨ha.of_le hv.le, hv.inside⟩,
    hv.lastStart, hv.lastEnd, fun i p hp => ?_⟩
  rw [List.getElem?_cons_succ] at hp
  cases i with
  | zero =>
      obtain rfl : b = p := Option.some.inj (hb.symm.trans hp)
      exact hn.of_le hv.le
  | succ i =>
      have hheavy := hv.heavy i p hp
      rwa [Nat.add_right_comm] at hheavy

theorem walk_cons {k : Graph R} {turns : List (Turn (Formula R))} {v : Walk (Formula R)}
    (hp : nextVertex a b t g = (p, k)) (hv : walk b p turns k = (v, h)) :
    walk a b (t :: turns) g = ({ v with vertices := a :: v.vertices }, h) := by
  simp only [walk, bind, StateT.bind, hp, hv]
  rfl

theorem walk_first {turns : List (Turn (Formula R))} {v : Walk (Formula R)}
    (hv : walk a b turns g = (v, h)) : v.vertices[0]? = some a := by
  cases turns with
  | nil =>
      cases hv
      rfl
  | cons t turns =>
      rcases hp : (nextVertex a b t g : Point (Formula R) × Graph R) with ⟨p, k⟩
      rcases hw : (walk b p turns k : Walk (Formula R) × Graph R) with ⟨w, l⟩
      rw [walk_cons hp hw] at hv
      cases hv
      rfl

/-- Every vertex of a walk doubles what the coordinates contain. -/
theorem walk_walked {turns : List (Turn (Formula R))} {v : Walk (Formula R)} {m : Nat}
    (hg : g.WellFormed) (ha : Inside g a) (hb : Inside g b) (hturns : ∀ t ∈ turns, Turning g t)
    (hn : Heavy g b (2 ^ m - 1)) (hv : walk a b turns g = (v, h)) : Walked m g h v := by
  induction turns generalizing a b g v m with
  | nil =>
      cases hv
      exact .nil hg ha hb hn
  | cons t turns ih =>
      obtain ⟨ht, hturns⟩ := List.forall_mem_cons.mp hturns
      rcases hp : (nextVertex a b t g : Point (Formula R) × Graph R) with ⟨p, k⟩
      rcases hw : (walk b p turns k : Walk (Formula R) × Graph R) with ⟨w, l⟩
      rw [walk_cons hp hw] at hv
      cases hv
      obtain ⟨hp, hheavy⟩ := nextVertex_heavy hg ha hb ht hn hp
      have hpow : 2 * (2 ^ m - 1) + 1 = 2 ^ (m + 1) - 1 := by
        have := Nat.one_le_two_pow (n := m)
        omega
      have hrest := ih hp.wellFormed (hb.of_le hp.le) hp.inside
        (fun t ht => (hturns t ht).of_le hp.le) (hpow ▸ hheavy) hw
      exact .cons hp.le (ha.of_le hp.le) (hn.of_le hp.le) (walk_first hw) hrest

end PlaneFigure.Placement
