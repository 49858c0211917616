import PlaneFigure.Geometry.Line
import PlaneFigure.Geometry.Residual
import PlaneFigure.Proofs.Draft.Natural
import PlaneFigure.Proofs.Simulation.World

/-!
Geometry on recorded formulas is geometry on numbers. There is one theorem for each function, proved
from those of the functions it calls.
-/

namespace PlaneFigure

section Instances

variable {R α β : Type} [Mirror R α β] {w w' : World R}

instance : Mirror R (Point α) (Point β) where
  Stands w p q := Stands w p.x q.x ∧ Stands w p.y q.y
  mono hle hs := ⟨hs.1.mono hle, hs.2.mono hle⟩

instance {p : Point α} {q : Point β} [h : Stands w p q] : Stands w p.x q.x := h.out.1

instance {p : Point α} {q : Point β} [h : Stands w p q] : Stands w p.y q.y := h.out.2

instance {y z : α} {x u : β} [h : Stands w y x] [h' : Stands w z u] :
    Stands w (Point.mk y z) (Point.mk x u) :=
  ⟨h, h'⟩

open PlaneFigure.Geometry

instance : Mirror R (Sides α) (Sides β) where
  Stands w s t := Stands w s.a t.a ∧ Stands w s.b t.b ∧ Stands w s.c t.c
  mono hle hs := ⟨hs.1.mono hle, hs.2.1.mono hle, hs.2.2.mono hle⟩

instance {s : Sides α} {t : Sides β} [h : Stands w s t] : Stands w s.a t.a := h.out.1

instance {s : Sides α} {t : Sides β} [h : Stands w s t] : Stands w s.b t.b := h.out.2.1

instance {s : Sides α} {t : Sides β} [h : Stands w s t] : Stands w s.c t.c := h.out.2.2

instance {a b c : α} {a' b' c' : β} [ha : Stands w a a'] [hb : Stands w b b'] [hc : Stands w c c'] :
    Stands w (Sides.mk a b c) (Sides.mk a' b' c') :=
  ⟨ha, hb, hc⟩

instance : Mirror R (TwoPoints α) (TwoPoints β) where
  Stands w l m := Stands w l.p m.p ∧ Stands w l.q m.q
  mono hle hs := ⟨hs.1.mono hle, hs.2.mono hle⟩

instance {l : TwoPoints α} {m : TwoPoints β} [h : Stands w l m] : Stands w l.p m.p := h.out.1

instance {l : TwoPoints α} {m : TwoPoints β} [h : Stands w l m] : Stands w l.q m.q := h.out.2

instance {p q : Point α} {p' q' : Point β} [hp : Stands w p p'] [hq : Stands w q q'] :
    Stands w (TwoPoints.mk p q) (TwoPoints.mk p' q') :=
  ⟨hp, hq⟩

instance : Mirror R (CenterRadius α) (CenterRadius β) where
  Stands w k m := Stands w k.center m.center ∧ Stands w k.radius m.radius
  mono hle hs := ⟨hs.1.mono hle, hs.2.mono hle⟩

instance {k : CenterRadius α} {m : CenterRadius β} [h : Stands w k m] :
    Stands w k.center m.center :=
  h.out.1

instance {k : CenterRadius α} {m : CenterRadius β} [h : Stands w k m] :
    Stands w k.radius m.radius :=
  h.out.2

instance {o : Point α} {r : α} {o' : Point β} {r' : β} [ho : Stands w o o'] [hr : Stands w r r'] :
    Stands w (CenterRadius.mk o r) (CenterRadius.mk o' r') :=
  ⟨ho, hr⟩

end Instances

/-- A formula, and the number that it stands for. -/
structure Twin {R : Type} [Number R] (w : World R) where
  formula : Formula R
  number : R
  stands : Stands w formula number

section Twins

variable {R : Type} [Number R] {w w' : World R}

def Twin.later (hle : w ≤ w') (z : Twin w) : Twin w' :=
  ⟨z.formula, z.number, z.stands.mono hle⟩

/-- Values that only differ in their scalars stand for each other if the scalars do. -/
@[reducible] def Mirror.ofMap (F : Type → Type) (map : ∀ {α β : Type}, (α → β) → F α → F β)
    (map_map : ∀ {α β γ : Type} (f : α → β) (g : β → γ) (z : F α),
      map g (map f z) = map (g ∘ f) z) : Mirror R (F (Formula R)) (F R) where
  Stands w y x := ∃ z : F (Twin w), map Twin.formula z = y ∧ map Twin.number z = x
  mono hle := by
    rintro ⟨z, rfl, rfl⟩
    exact ⟨map (Twin.later hle) z, map_map _ _ z, map_map _ _ z⟩

instance {p : Point (Twin w)} : Stands w (p.map Twin.formula) (p.map Twin.number) :=
  ⟨p.x.stands, p.y.stands⟩

/-- Points that stand for each other, as one of twins. -/
def Point.twins {p : Point (Formula R)} {q : Point R} (h : Stands w p q) : Point (Twin w) :=
  ⟨⟨p.x, q.x, h.out.1⟩, ⟨p.y, q.y, h.out.2⟩⟩

open PlaneFigure.Geometry

instance : Mirror R (Line (Formula R)) (Line R) := .ofMap Line Line.map Line.map_map

instance : Mirror R (Circle (Formula R)) (Circle R) := .ofMap Circle Circle.map Circle.map_map

instance {a b c : Point (Formula R)} {a' b' c' : Point R} [ha : Stands w a a']
    [hb : Stands w b b'] [hc : Stands w c c'] :
    Stands w (Circle.through a b c) (Circle.through a' b' c') :=
  ⟨⟨.through (.twins ha) (.twins hb) (.twins hc), rfl, rfl⟩⟩

instance {o a : Point (Formula R)} {o' a' : Point R} [ho : Stands w o o'] [ha : Stands w a a'] :
    Stands w (Circle.around o a) (Circle.around o' a') :=
  ⟨⟨.around (.twins ho) (.twins ha), rfl, rfl⟩⟩

end Twins

namespace Simulates

variable {R β : Type} [Number R] [Mirror R (Formula R) β] [Scalar β R Unit] [ScalarMirror R β]
  {A : Basis R} {w : World R}
  {a b c d m o p q z : Point (Formula R)} {a' b' c' d' m' o' p' q' z' : Point β}
  {x y θ : Formula R} {x' y' θ' : β}

/-! ### Vectors -/

theorem point_add [Stands w a a'] [Stands w b b'] :
    Simulates (OnGraph A) w (a.add b) (a'.add b') :=
  .bind .binary <| .bind .binary .pure

theorem point_sub [Stands w a a'] [Stands w b b'] :
    Simulates (OnGraph A) w (a.sub b) (a'.sub b') :=
  .bind .binary <| .bind .binary .pure

theorem smul [Stands w a a'] [Stands w x x'] :
    Simulates (OnGraph A) w (a.smul x) (a'.smul x') :=
  .bind .binary <| .bind .binary .pure

theorem scale {k : R} [Stands w a a'] : Simulates (OnGraph A) w (a.scale k) (a'.scale k) :=
  .bind .binaryConst <| .bind .binaryConst .pure

theorem point_const {r s : R} :
    Simulates (OnGraph A) w (Point.const r s : StateM (Graph R) (Point (Formula R)))
      (Point.const r s : StateM Unit (Point β)) :=
  .bind .const <| .bind .const .pure

theorem point_simplify [Simplifies β w] [Stands w a a'] :
    Simulates (OnGraph A) w (a.simplify .trig) (a'.simplify .trig) :=
  .bind .simplify <| .bind .simplify .pure

/-! ### Measures -/

theorem midpoint [Stands w a a'] [Stands w b b'] :
    Simulates (OnGraph A) w (Geometry.midpoint a b) (Geometry.midpoint a' b') :=
  .bind .point_add .scale

theorem reflect [Stands w m m'] [Stands w a a'] :
    Simulates (OnGraph A) w (Geometry.reflect m a) (Geometry.reflect m' a') :=
  .bind .point_sub <| .bind .scale .point_add

theorem sqDist [Stands w a a'] [Stands w b b'] :
    Simulates (OnGraph A) w (Geometry.sqDist a b) (Geometry.sqDist a' b') :=
  .bind .binary <| .bind .binary <| .bind .binary <| .bind .binary .binary

theorem dist [Stands w a a'] [Stands w b b'] :
    Simulates (OnGraph A) w (Geometry.dist a b) (Geometry.dist a' b') :=
  .bind .sqDist .unary

theorem dot [Stands w a a'] [Stands w b b'] :
    Simulates (OnGraph A) w (Geometry.dot a b) (Geometry.dot a' b') :=
  .bind .binary <| .bind .binary .binary

theorem applyRows {rows : Point (Formula R) × Point (Formula R)} {rows' : Point β × Point β}
    [Stands w rows rows'] [Stands w p p'] :
    Simulates (OnGraph A) w (Geometry.applyRows rows p) (Geometry.applyRows rows' p') :=
  .bind .dot <| .bind .dot .pure

theorem rotation [Stands w θ θ'] :
    Simulates (OnGraph A) w (Geometry.rotation θ) (Geometry.rotation θ') :=
  .bind .unary <| .bind .unary <| .bind .unary .pure

theorem rotate [Stands w θ θ'] [Stands w p p'] :
    Simulates (OnGraph A) w (Geometry.rotate θ p) (Geometry.rotate θ' p') :=
  .bind .rotation .applyRows

theorem quarterTurnLeft [Stands w p p'] :
    Simulates (OnGraph A) w (Geometry.quarterTurnLeft p) (Geometry.quarterTurnLeft p') :=
  .bind .unary .pure

theorem sides [Stands w a a'] [Stands w b b'] [Stands w c c'] :
    Simulates (OnGraph A) w (Geometry.sides a b c) (Geometry.sides a' b' c') :=
  .bind .dist <| .bind .dist <| .bind .dist .pure

theorem clampUnit [Stands w x x'] :
    Simulates (OnGraph A) w (Geometry.clampUnit x) (Geometry.clampUnit x') :=
  .bind .const <| .bind .binary <| .bind .unary <| .bind .const <| .bind .binary .unary

theorem cosAngle [Stands w a a'] [Stands w b b'] [Stands w c c'] :
    Simulates (OnGraph A) w (Geometry.cosAngle a b c) (Geometry.cosAngle a' b' c') :=
  .bind .sides <| .bind .binary <| .bind .binary <| .bind .binary <| .bind .binary <|
    .bind .binary <| .bind .binary <| .bind .binaryConst .binary

theorem angle [Stands w a a'] [Stands w b b'] [Stands w c c'] :
    Simulates (OnGraph A) w (Geometry.angle a b c) (Geometry.angle a' b' c') :=
  .bind .cosAngle <| .bind .clampUnit .unary

/-! ### Centers and circles -/

theorem conway [Stands w a a'] [Stands w b b'] [Stands w c c'] :
    Simulates (OnGraph A) w (Geometry.conway a b c) (Geometry.conway a' b' c') :=
  .bind .sides <| .bind .binary <| .bind .binary <| .bind .binary <|
    .bind .binary <| .bind .binary <| .bind .binaryConst <|
    .bind .binary <| .bind .binary <| .bind .binaryConst <|
    .bind .binary <| .bind .binary <| .bind .binaryConst .pure

theorem weighted {s t u x y z : Formula R} {s' t' u' x' y' z' : β} [Stands w s s'] [Stands w t t']
    [Stands w u u'] [Stands w x x'] [Stands w y y'] [Stands w z z'] :
    Simulates (OnGraph A) w (Geometry.weighted s t u x y z) (Geometry.weighted s' t' u' x' y' z') :=
  .bind .binary <| .bind .binary <| .bind .binary <| .bind .binary .binary

theorem trilinear {x y z : Formula R} {x' y' z' : β} [Stands w a a'] [Stands w b b']
    [Stands w c c'] [Stands w x x'] [Stands w y y'] [Stands w z z'] :
    Simulates (OnGraph A) w (Geometry.trilinear a b c x y z)
      (Geometry.trilinear a' b' c' x' y' z') :=
  .bind .sides <| .bind .binary <| .bind .binary <| .bind .binary <| .bind .binary <|
    .bind .binary <| .bind .weighted <| .bind .binary <| .bind .weighted <| .bind .binary .pure

theorem barycentric {x y z : Formula R} {x' y' z' : β} [Stands w a a'] [Stands w b b']
    [Stands w c c'] [Stands w x x'] [Stands w y y'] [Stands w z z'] :
    Simulates (OnGraph A) w (Geometry.barycentric a b c x y z)
      (Geometry.barycentric a' b' c' x' y' z') :=
  .bind .sides <| .bind .binary <| .bind .binary <| .bind .binary .trilinear

theorem circumcenter [Stands w a a'] [Stands w b b'] [Stands w c c'] :
    Simulates (OnGraph A) w (Geometry.circumcenter a b c) (Geometry.circumcenter a' b' c') :=
  .bind .sides <| .bind .conway <| .bind .binary <| .bind .binary <| .bind .binary <|
    .bind .binary <| .bind .binary <| .bind .binary .barycentric

theorem orthocenter [Stands w a a'] [Stands w b b'] [Stands w c c'] :
    Simulates (OnGraph A) w (Geometry.orthocenter a b c) (Geometry.orthocenter a' b' c') :=
  .bind .conway <| .bind .binary <| .bind .binary <| .bind .binary .barycentric

theorem centroid [Stands w a a'] [Stands w b b'] [Stands w c c'] :
    Simulates (OnGraph A) w (Geometry.centroid a b c) (Geometry.centroid a' b' c') :=
  .bind .const <| .bind .const <| .bind .const .barycentric

theorem incenter [Stands w a a'] [Stands w b b'] [Stands w c c'] :
    Simulates (OnGraph A) w (Geometry.incenter a b c) (Geometry.incenter a' b' c') :=
  .bind .const <| .bind .const <| .bind .const .trilinear

theorem centerRadius {k : Geometry.Circle (Formula R)} {k' : Geometry.Circle R}
    [h : Stands w k k'] : Simulates (OnGraph A) w k.centerRadius k'.centerRadius := by
  obtain ⟨z, rfl, rfl⟩ := h.out
  cases z with
  | through a b c => exact .bind .circumcenter <| .bind .dist .pure
  | around o a => exact .bind .dist .pure
  | compass o x y => exact .bind .dist .pure
  | diameter a b => exact .bind .midpoint <| .bind .dist .pure

/-! ### Lines -/

theorem direction {l : Geometry.TwoPoints (Formula R)} {l' : Geometry.TwoPoints β}
    [Stands w l l'] : Simulates (OnGraph A) w l.direction l'.direction :=
  .point_sub

theorem det {l m : Geometry.TwoPoints (Formula R)} {l' m' : Geometry.TwoPoints β}
    [Stands w l l'] [Stands w m m'] : Simulates (OnGraph A) w (l.det m) (l'.det m') :=
  .bind .direction <| .bind .direction <| .bind .binary <| .bind .binary .binary

theorem intersection {l m : Geometry.TwoPoints (Formula R)} {l' m' : Geometry.TwoPoints β}
    [Stands w l l'] [Stands w m m'] :
    Simulates (OnGraph A) w (l.intersection m) (l'.intersection m') :=
  .bind .direction <| .bind .direction <| .bind .point_sub <| .bind .binary <| .bind .binary <|
    .bind .binary <| .bind .det <| .bind .binary <| .bind .smul .point_add

theorem bisector [Stands w a a'] [Stands w b b'] [Stands w c c'] :
    Simulates (OnGraph A) w (Geometry.bisector a b c) (Geometry.bisector a' b' c') :=
  .bind .dist <| .bind .dist <| .bind .binary <| .bind .point_sub <| .bind .smul <|
    .bind .point_add <| .bind .midpoint .pure

theorem line_points {l : Geometry.Line (Formula R)} {l' : Geometry.Line R} [h : Stands w l l'] :
    Simulates (OnGraph A) w l.points l'.points := by
  obtain ⟨z, rfl, rfl⟩ := h.out
  cases z with
  | connecting a b => exact .pure
  | parallel x a b => exact .bind .point_sub <| .bind .point_add .pure
  | perpendicular x a b =>
      exact .bind .point_sub <| .bind .quarterTurnLeft <| .bind .point_add .pure
  | mediator a b =>
      exact .bind .midpoint <| .bind .point_sub <| .bind .quarterTurnLeft <| .bind .point_add .pure
  | internalBisector a b c => exact .bisector
  | externalBisector a b c =>
      exact .bind .bisector <| .bind .point_sub <| .bind .quarterTurnLeft <| .bind .point_add .pure
  | atAngle b c d x y =>
      exact .bind .angle <| .bind .point_sub <| .bind .rotate <| .bind .point_add .pure

/-! ### Residuals -/

theorem perpResidual [Stands w a a'] [Stands w b b'] [Stands w c c'] [Stands w d d'] :
    Simulates (OnGraph A) w (Geometry.perpResidual a b c d)
      (Geometry.perpResidual a' b' c' d') :=
  .bind .binary <| .bind .binary <| .bind .binary <| .bind .binary <| .bind .binary <|
    .bind .binary .binary

theorem paraResidual [Stands w a a'] [Stands w b b'] [Stands w c c'] [Stands w d d'] :
    Simulates (OnGraph A) w (Geometry.paraResidual a b c d)
      (Geometry.paraResidual a' b' c' d') :=
  .bind .binary <| .bind .binary <| .bind .binary <| .bind .binary <| .bind .binary <|
    .bind .binary .binary

theorem congResidual [Stands w a a'] [Stands w b b'] [Stands w c c'] [Stands w d d'] :
    Simulates (OnGraph A) w (Geometry.congResidual a b c d)
      (Geometry.congResidual a' b' c' d') :=
  .bind .sqDist <| .bind .sqDist .binary

theorem collResidual [Stands w a a'] [Stands w b b'] [Stands w c c'] :
    Simulates (OnGraph A) w (Geometry.collResidual a b c) (Geometry.collResidual a' b' c') :=
  .bind .binary <| .bind .binary <| .bind .binary <| .bind .binary <| .bind .binary <|
    .bind .binary <| .bind .binary .binary

theorem midpResidual [Stands w m m'] [Stands w a a'] [Stands w b b'] :
    Simulates (OnGraph A) w (Geometry.midpResidual m a b) (Geometry.midpResidual m' a' b') :=
  .bind .midpoint .dist

theorem gap {z x y u : Formula R} {z' x' y' u' : β} [Stands w z z'] [Stands w x x']
    [Stands w y y'] [Stands w u u'] :
    Simulates (OnGraph A) w (Geometry.gap z x y u) (Geometry.gap z' x' y' u') :=
  .bind .binary <| .bind .binary <| .bind .binary .binary

theorem betweenResiduals [Stands w p p'] [Stands w a a'] [Stands w b b'] :
    Simulates (OnGraph A) w (Geometry.betweenResiduals p a b)
      (Geometry.betweenResiduals p' a' b') :=
  .bind .point_sub <| .bind .scale <| .bind .point_add <| .bind .point_sub <| .bind .scale <|
    .bind .point_add <| .bind .const <| .bind .gap <| .bind .gap .pure

theorem onCircleResidual {k : Geometry.Circle (Formula R)} {k' : Geometry.Circle R} {p' : Point R}
    [Stands w p p'] [Stands w k k'] :
    Simulates (OnGraph A) w (Geometry.onCircleResidual p k) (Geometry.onCircleResidual p' k') :=
  .bind .centerRadius <| .bind .dist .binary

end Simulates

end PlaneFigure
