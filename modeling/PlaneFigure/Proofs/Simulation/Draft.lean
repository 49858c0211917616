import PlaneFigure.Draft.Basic
import PlaneFigure.Proofs.Simulation.Placement

/-!
Drafts on numbers and drafts that record formulas. Instruction by instruction they stay in relation,
also where an instruction is refused, and the lines that are parallel are the same for both. So the
two cannot be told apart by what is seen of them at the end.
-/

namespace PlaneFigure

variable {R : Type} [Number R] {w : World R}

section Instances

variable {α β : Type} [Mirror R α β]

instance {ε : Type} {y : α} {x : β} [h : Stands w y x] :
    Stands w (Except.ok y : Except ε α) (Except.ok x : Except ε β) :=
  ⟨h⟩

instance {ε : Type} {e : ε} :
    Stands w (Except.error e : Except ε α) (Except.error e : Except ε β) :=
  ⟨rfl⟩

instance : Mirror R (PointTable α) (PointTable β) where
  Stands w t u := Stands w t.entries u.entries
  mono hle hs := hs.mono hle

instance {t : PointTable α} {u : PointTable β} [h : Stands w t u] :
    Stands w t.entries u.entries :=
  h.out

instance {t : PointTable α} {u : PointTable β} {points : List (String × Point α)}
    {points' : List (String × Point β)} [Stands w t u] [Stands w points points'] :
    Stands w (t.append points) (u.append points') :=
  ⟨inferInstanceAs (Stands w (t.entries ++ points) (u.entries ++ points'))⟩

instance : Mirror R (LossTable α R) (LossTable β R) where
  Stands w t u := Stands w t.entries u.entries
  mono hle hs := hs.mono hle

instance {t : LossTable α R} {u : LossTable β R} [h : Stands w t u] :
    Stands w t.entries u.entries :=
  h.out

instance {t : LossTable α R} {u : LossTable β R} {losses : List (String × Loss α R)}
    {losses' : List (String × Loss β R)} [Stands w t u] [Stands w losses losses'] :
    Stands w (t.append losses) (u.append losses') :=
  ⟨inferInstanceAs (Stands w (t.entries ++ losses) (u.entries ++ losses'))⟩

instance : Mirror R (Construction (Formula R)) (Construction R) :=
  .ofMap Construction Construction.map Construction.map_map

instance : Mirror R (Relation (Formula R)) (Relation R) :=
  .ofMap Relation Relation.map Relation.map_map

instance : Mirror R (Action (Formula R)) (Action R) := .ofMap Action Action.map Action.map_map

end Instances

/-- Points that stand for each other, as points of twins. -/
theorem exists_twins {t : PointTable (Formula R)} {t' : PointTable R} (h : Stands w t t') :
    ∃ z : PointTable (Twin w), z.map Twin.formula = t ∧ z.map Twin.number = t' := by
  obtain ⟨entries⟩ := t
  obtain ⟨entries'⟩ := t'
  have hall : List.Forall₂ (Stands w) entries entries' := h.out.out
  clear h
  induction hall with
  | nil => exact ⟨⟨[]⟩, rfl, rfl⟩
  | @cons e e' _ _ he _ ih =>
      obtain ⟨name, p⟩ := e
      obtain ⟨name', q⟩ := e'
      obtain ⟨⟨hname : name = name'⟩, hp : Stands w p q⟩ := he.out
      obtain ⟨⟨z⟩, hz, hz'⟩ := ih
      subst hname
      refine ⟨⟨(name, .twins hp) :: z⟩, ?_, ?_⟩
      · exact congrArg (fun t => PointTable.mk ((name, p) :: t.entries)) hz
      · exact congrArg (fun t => PointTable.mk ((name, q) :: t.entries)) hz'

/-- An instruction is refused for the same reason, or the actions stand for each other. -/
theorem check_stands {t : PointTable (Formula R)} {t' : PointTable R} (h : Stands w t t')
    (i : Instruction) : Stands w (t.check i) (t'.check i) := by
  obtain ⟨z, rfl, rfl⟩ := exists_twins h
  rw [PointTable.check_map, PointTable.check_map]
  cases z.check i with
  | error e => exact ⟨rfl⟩
  | ok a => exact ⟨⟨a, rfl, rfl⟩⟩

namespace Simulates

variable {A : Basis R}

theorem construction_point {k : Construction (Formula R)} {k' : Construction R}
    [h : Stands w k k'] : Simulates (OnGraph A) w k.point k'.point := by
  obtain ⟨z, rfl, rfl⟩ := h.out
  cases z with
  | midpoint a b => exact .midpoint
  | reflection m a => exact .reflect
  | circumcenter a b c => exact .circumcenter
  | orthocenter a b c => exact .orthocenter
  | centroid a b c => exact .centroid
  | incenter a b c => exact .incenter

theorem residuals {r : Relation (Formula R)} {r' : Relation R} [h : Stands w r r'] :
    Simulates (OnGraph A) w r.residuals r'.residuals := by
  obtain ⟨z, rfl, rfl⟩ := h.out
  cases z with
  | perp a b c d => exact .bind .perpResidual .pure
  | para a b c d => exact .bind .paraResidual .pure
  | cong a b c d => exact .bind .congResidual .pure
  | midp m a b => exact .bind .midpResidual .pure
  | coll a b c => exact .bind .collResidual .pure
  | between x a b => exact .bind .betweenResiduals .pure
  | onCircle x o a => exact .bind .onCircleResidual .pure
  | concyclic a b c d => exact .bind .onCircleResidual .pure

theorem losses {label : String} {r : Relation (Formula R)} {r' : Relation R} [Stands w r r'] :
    Simulates (OnGraph A) w (r.losses label) (r'.losses label) := by
  refine .bind .residuals fun {w' l l' _ hl} => ?_
  have hmany : ∀ weight : R,
      Stands w' (l.mapIdx fun i y => (label ++ "_" ++ toString i, Loss.mk y weight))
        (l'.mapIdx fun i x => (label ++ "_" ++ toString i, Loss.mk x weight)) :=
    fun _ => hl.mapIdx fun _ _ _ _ => inferInstance
  have hlength := hl.length_eq
  have hall : List.Forall₂ (Stands w') l l' := hl.out
  cases hall with
  | nil => exact .pure (h := hmany _)
  | @cons y x l l' hyx hall =>
      cases hall with
      | nil => exact .pure
      | cons hzu hall =>
          simp only [hlength]
          exact .pure (h := hmany _)

end Simulates

section Canvas

variable {c : Canvas R (Graph R)} {d : Canvas R Unit} {l : List Nat} {n : Nat}

/-- What stands for a number has it as its current value. -/
theorem OnCanvas.value_eq (h : OnCanvas ⟨Set.univ, l, n⟩ w c d) {y : Formula R} {x : R} (hs : Stands w y x) :
    Scalar.read c.memory c.assignment y = x := by
  have hadmitted : c.assignment ∈ w.assignments :=
    h.assignments ▸ ⟨c.assignment_mem_admitted, Set.mem_univ _⟩
  rw [← h.graph]
  exact hs.out.2 _ hadmitted

theorem OnCanvas.point_eq (h : OnCanvas ⟨Set.univ, l, n⟩ w c d) {p : Point (Formula R)} {q : Point R}
    (hs : Stands w p q) : p.read c.memory c.assignment = q := by
  rw [Point.read, h.value_eq hs.out.1, h.value_eq hs.out.2]

theorem OnCanvas.transversal_eq (h : OnCanvas ⟨Set.univ, l, n⟩ w c d) (degeneracy : R) {y : Formula R} {x : R}
    {p q : Point (Formula R)} {p' q' : Point R} (hs : Stands w y x) (hp : Stands w p p')
    (hq : Stands w q q') : transversal degeneracy c y p q = transversal degeneracy d x p' q' := by
  simp only [transversal, Canvas.value, h.value_eq hs, h.point_eq hp, h.point_eq hq]
  rfl

end Canvas

namespace Simulates

variable {A : Basis R} {leaves : List Nat} {n : Nat}

omit [Number R] in
theorem get {α β : Type} [Mirror R α β] {next : Canvas R (Graph R) → StateM (Canvas R (Graph R)) α}
    {next' : Canvas R Unit → StateM (Canvas R Unit) β}
    (h : ∀ c d, OnCanvas A w c d → Simulates (OnCanvas A) w (next c) (next' d)) :
    Simulates (OnCanvas A) w (MonadState.get >>= next) (MonadState.get >>= next') :=
  fun c d hcd => h c d hcd c d hcd

theorem checkedIntersection {degeneracy : R} {s t : LineSpec} {l m : Geometry.Line (Formula R)}
    {l' m' : Geometry.Line R} [Stands w l l'] [Stands w m m'] :
    Simulates (OnCanvas ⟨Set.univ, leaves, n⟩) w (checkedIntersection degeneracy (s, l) (t, m))
      (checkedIntersection degeneracy (s, l') (t, m')) := by
  refine .bind (.lift .line_points) <| .bind (.lift .line_points) <| .bind (.lift .det) <|
    .bind (.lift .direction) <| .bind (.lift .direction) <| .get fun c d hcd => ?_
  exact .ite (hcd.transversal_eq degeneracy inferInstance inferInstance inferInstance)
    (.bind (.lift .intersection) .pure) .pure

theorem action [w.Symmetric] [Uniform R] {degeneracy : R} {a : Action (Formula R)}
    {a' : Action R} [h : Stands w a a'] :
    Simulates (OnCanvas ⟨Set.univ, leaves, n⟩) w (a.run degeneracy) (a'.run degeneracy) := by
  obtain ⟨z, rfl, rfl⟩ := h.out
  cases z with
  | place placement =>
      refine .bind (Attempts.place) fun {w' y x _ hyx} => ?_
      obtain ⟨e, rfl, rfl⟩ | ⟨a, b, rfl, rfl, hab⟩ := hyx.except_cases <;> exact .pure
  | construct name c =>
      have : Stands w (c.map Twin.formula) (c.map Twin.number) := ⟨⟨c, rfl, rfl⟩⟩
      exact .bind (.lift .construction_point) .pure
  | intersect name l m =>
      have : Stands w (l.2.map Twin.formula) (l.2.map Twin.number) := ⟨⟨l.2, rfl, rfl⟩⟩
      have : Stands w (m.2.map Twin.formula) (m.2.map Twin.number) := ⟨⟨m.2, rfl, rfl⟩⟩
      refine .bind .checkedIntersection fun {w' y x _ hyx} => ?_
      obtain ⟨e, rfl, rfl⟩ | ⟨a, b, rfl, rfl, hab⟩ := hyx.except_cases <;> exact .pure
  | relate label r =>
      have : Stands w (r.map Twin.formula) (r.map Twin.number) := ⟨⟨r, rfl, rfl⟩⟩
      exact .bind (.lift .losses) .pure

end Simulates

/-- Drafts with the same settings, on canvases in relation, whose points and losses stand for each
other. -/
structure OnDraft (w : World R) (d : Draft (Formula R) R (Graph R)) (e : Draft R R Unit) :
    Prop where
  canvas : OnCanvas (d.canvas.basis Set.univ) w d.canvas e.canvas
  settings : d.settings = e.settings
  points : Stands w d.points e.points
  losses : Stands w d.losses e.losses

namespace Simulates

variable [Uniform R]

theorem process [w.Symmetric] (i : Instruction) :
    Simulates OnDraft w
      (Draft.process i :
        StateM (Draft (Formula R) R (Graph R)) (Except DraftError (Addition (Formula R) R)))
      (Draft.process i : StateM (Draft R R Unit) (Except DraftError (Addition R R))) := by
  rintro d e ⟨hcanvas, hsettings, hpoints, hlosses⟩
  unfold Draft.process
  obtain ⟨err, hd, he⟩ | ⟨a, b, hd, he, hab⟩ := (check_stands hpoints i).except_cases
  · rw [hd, he]
    exact ⟨w, le_refl w, ⟨hcanvas, hsettings, hpoints, hlosses⟩, ⟨rfl⟩⟩
  · rw [hd, he]
    have hrun : Simulates (OnCanvas (d.canvas.basis Set.univ)) w (a.run d.settings.degeneracy)
        (b.run e.settings.degeneracy) := by
      rw [hsettings]
      exact action
    obtain ⟨w', hle, hcanvas', hresult⟩ := hrun d.canvas e.canvas hcanvas
    dsimp only
    generalize a.run d.settings.degeneracy d.canvas = rd at hcanvas' hresult ⊢
    generalize b.run e.settings.degeneracy e.canvas = re at hcanvas' hresult ⊢
    obtain ⟨rd, c⟩ := rd
    obtain ⟨re, c'⟩ := re
    obtain ⟨err, rfl, rfl⟩ | ⟨x, y, rfl, rfl, hxy⟩ := hresult.except_cases
    · -- what was recorded is dropped, but the variables stay
      have hback : w ≤ ⟨w.graph, w.wellFormed, w'.assignments⟩ := ⟨le_refl w.graph, hle.2⟩
      exact ⟨_, hback, ⟨⟨hcanvas.graph, hcanvas'.assignments, ⟨0, rfl, (List.append_nil _).symm⟩,
        hcanvas'.vars, hcanvas'.draws⟩, hsettings, hpoints.mono hback, hlosses.mono hback⟩, ⟨rfl⟩⟩
    · have : Stands w' d.points e.points := hpoints.mono hle
      have : Stands w' d.losses e.losses := hlosses.mono hle
      exact ⟨w', hle, ⟨hcanvas'.restart, hsettings,
        inferInstanceAs (Stands w' (d.points.append x.points) (e.points.append y.points)),
        inferInstanceAs (Stands w' (d.losses.append x.losses) (e.losses.append y.losses))⟩, ⟨hxy⟩⟩

end Simulates

section Regularizer

variable {A : Basis R} {l : List (Point (Formula R))} {l' : List (Point R)}

instance {α β : Type} [Mirror R α β] {entries : List (String × Point α)}
    {entries' : List (String × Point β)} [h : Stands w entries entries'] :
    Stands w (entries.map (·.2)) (entries'.map (·.2)) := by
  have hall : List.Forall₂ (Stands w) entries entries' := h.out
  exact ⟨List.forall₂_map_left_iff.mpr (List.forall₂_map_right_iff.mpr
    (hall.imp fun _ _ h => h.out.2))⟩

theorem Simulates.mean {l : List (Formula R)} {l' : List R} [hl : Stands w l l'] :
    Simulates (OnGraph A) w (Regularizer.mean l) (Regularizer.mean l') := by
  unfold Regularizer.mean
  rw [hl.length_eq]
  exact .bind .sum .binaryConst

theorem Simulates.meanNorm [Stands w l l'] :
    Simulates (OnGraph A) w (Regularizer.meanNorm l) (Regularizer.meanNorm l') :=
  .bind .point_const <| .bind (.mapM .dist) .mean

instance [hl : Stands w l l'] : Stands w (Regularizer.pairs l) (Regularizer.pairs l') := by
  have hall : List.Forall₂ (Stands w) l l' := hl.out
  clear hl
  induction hall with
  | nil => exact ⟨.nil⟩
  | @cons p q l l' hpq hall ih =>
      have hfirst : Stands w (l.map (p, ·)) (l'.map (q, ·)) :=
        ⟨List.forall₂_map_left_iff.mpr (List.forall₂_map_right_iff.mpr
          (hall.imp fun _ _ h => ⟨⟨hpq, h⟩⟩))⟩
      exact inferInstanceAs (Stands w (l.map (p, ·) ++ Regularizer.pairs l)
        (l'.map (q, ·) ++ Regularizer.pairs l'))

theorem Simulates.meanCloseness [Stands w l l'] :
    Simulates (OnGraph A) w (Regularizer.meanCloseness l) (Regularizer.meanCloseness l') :=
  .bind .const <| .bind (.mapM (.bind .sqDist <| .bind .binaryConst .binary)) .mean

theorem Simulates.weighted_loss {l : Loss (Formula R) R} {m : Loss R R} [h : Stands w l m] :
    Simulates (OnGraph A) w l.weighted m.weighted := by
  obtain ⟨hresidual, hweight⟩ := h.out
  unfold Loss.weighted
  rw [hweight]
  exact .bind .binary .binaryConst

theorem Simulates.total {t : LossTable (Formula R) R} {t' : LossTable R R} [h : Stands w t t'] :
    Simulates (OnGraph A) w t.total t'.total := by
  exact .bind (.mapM .weighted_loss) .sum

end Regularizer

namespace OnDraft

variable {d : Draft (Formula R) R (Graph R)} {e : Draft R R Unit}

/-- A loss on all points is added on both sides, or on neither. -/
theorem regularize (h : OnDraft w d e) (label : String) (weight : R) (enough : Bool)
    {residual : List (Point (Formula R)) → StateM (Graph R) (Formula R)}
    {residual' : List (Point R) → StateM Unit R}
    (hresidual : ∀ A l l', Stands w l l' → Simulates (OnGraph A) w (residual l) (residual' l')) :
    ∃ w', OnDraft w' (d.regularize label weight enough residual)
      (e.regularize label weight enough residual') := by
  have hpoints : Stands w d.points e.points := h.points
  unfold Draft.regularize
  split
  · have hrun : ∀ {A}, Simulates (OnGraph A) w (residual (d.points.entries.map (·.2)))
        (residual' (e.points.entries.map (·.2))) :=
      hresidual _ _ _ inferInstance
    obtain ⟨w', hle, hcanvas, hstands⟩ := Simulates.lift hrun d.canvas e.canvas h.canvas
    have hlosses : Stands w' d.losses e.losses := h.losses.mono hle
    have hloss : Stands w'
        (Loss.mk (residual (d.points.entries.map (·.2)) d.canvas.memory).1 weight)
        (Loss.mk (residual' (e.points.entries.map (·.2)) e.canvas.memory).1 weight) :=
      ⟨hstands, rfl⟩
    exact ⟨w', hcanvas.restart, h.settings, hpoints.mono hle,
      inferInstanceAs (Stands w' (d.losses.append [(label, _)]) (e.losses.append [(label, _)]))⟩
  · exact ⟨w, h⟩

theorem finish (h : OnDraft w d e) : ∃ w', OnDraft w' d.finish e.finish := by
  have hlength : d.points.entries.length = e.points.entries.length := h.points.out.length_eq
  have hnorm : ∀ A (l : List (Point (Formula R))) (l' : List (Point R)), Stands w l l' →
      Simulates (OnGraph A) w (Regularizer.meanNorm l) (Regularizer.meanNorm l') :=
    fun _ _ _ _ => .meanNorm
  unfold Draft.finish
  simp only [hlength, h.settings]
  obtain ⟨w', h'⟩ := h.regularize "points-norm" e.settings.regularizePoints
    (0 < e.points.entries.length) hnorm
  simp only [h'.settings]
  exact h'.regularize "points-distinct" _ _ fun _ _ _ _ => .meanCloseness

end OnDraft

end PlaneFigure
