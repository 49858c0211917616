import PlaneFigure.Placement.Basic
import PlaneFigure.Proofs.Simulation.Canvas
import PlaneFigure.Proofs.Simulation.Geometry

/-!
Placements on a canvas that records formulas place the same points, and leave the same losses. The
vertices of polygons are simplified, so what formulas stand for must respect this; for numbers it
means that sine and cosine have their symmetries.
-/

namespace PlaneFigure

section Instances

variable {R α β γ : Type} [Mirror R α β] {w : World R}

open Placement

instance : Mirror R (Turn α) (Turn β) where
  Stands w t u := Stands w t.angle u.angle ∧ Stands w t.scale u.scale
  mono hle hs := ⟨hs.1.mono hle, hs.2.mono hle⟩

instance {t : Turn α} {u : Turn β} [h : Stands w t u] : Stands w t.angle u.angle := h.out.1

instance {t : Turn α} {u : Turn β} [h : Stands w t u] : Stands w t.scale u.scale := h.out.2

instance {angles scales : List α} {angles' scales' : List β} [ha : Stands w angles angles']
    [hs : Stands w scales scales'] :
    Stands w (angles.zipWith Turn.mk scales) (angles'.zipWith Turn.mk scales') := by
  have hangles : List.Forall₂ (Stands w) angles angles' := ha.out
  have hscales : List.Forall₂ (Stands w) scales scales' := hs.out
  clear ha hs
  refine ⟨?_⟩
  induction hangles generalizing scales scales' with
  | nil => exact .nil
  | cons h _ ih =>
      cases hscales with
      | nil => exact .nil
      | cons h' hscales => exact .cons ⟨h, h'⟩ (ih hscales)

instance {names : List String} {l : List α} {l' : List β} [hl : Stands w l l'] :
    Stands w (names.zip l) (names.zip l') := by
  have hall : List.Forall₂ (Stands w) l l' := hl.out
  clear hl
  refine ⟨?_⟩
  induction hall generalizing names with
  | nil => cases names <;> exact .nil
  | cons h _ ih =>
      cases names with
      | nil => exact .nil
      | cons name names => exact .cons ⟨⟨rfl⟩, h⟩ ih

instance : Mirror R (Walk α) (Walk β) where
  Stands w v u := Stands w v.vertices u.vertices ∧ Stands w v.lastStart u.lastStart ∧
    Stands w v.lastEnd u.lastEnd
  mono hle hs := ⟨hs.1.mono hle, hs.2.1.mono hle, hs.2.2.mono hle⟩

instance {v : Walk α} {u : Walk β} [h : Stands w v u] : Stands w v.vertices u.vertices := h.out.1

instance {v : Walk α} {u : Walk β} [h : Stands w v u] : Stands w v.lastStart u.lastStart :=
  h.out.2.1

instance {v : Walk α} {u : Walk β} [h : Stands w v u] : Stands w v.lastEnd u.lastEnd := h.out.2.2

instance {l : List (Point α)} {l' : List (Point β)} {p q : Point α} {p' q' : Point β}
    [hl : Stands w l l'] [hp : Stands w p p'] [hq : Stands w q q'] :
    Stands w (Walk.mk l p q) (Walk.mk l' p' q') :=
  ⟨hl, hp, hq⟩

instance : Mirror R (Loss α R) (Loss β R) where
  Stands w l m := Stands w l.residual m.residual ∧ l.weight = m.weight
  mono hle hs := ⟨hs.1.mono hle, hs.2⟩

instance {y : α} {x : β} {weight : R} [h : Stands w y x] :
    Stands w (Loss.mk y weight) (Loss.mk x weight) :=
  ⟨h, rfl⟩

instance : Mirror R (Addition α R) (Addition β R) where
  Stands w a b := Stands w a.points b.points ∧ Stands w a.losses b.losses
  mono hle hs := ⟨hs.1.mono hle, hs.2.mono hle⟩

instance {a : Addition α R} {b : Addition β R} [h : Stands w a b] : Stands w a.points b.points :=
  h.out.1

instance {a : Addition α R} {b : Addition β R} [h : Stands w a b] : Stands w a.losses b.losses :=
  h.out.2

instance {points : List (String × Point α)} {points' : List (String × Point β)}
    {losses : List (String × Loss α R)} {losses' : List (String × Loss β R)}
    [hp : Stands w points points'] [hl : Stands w losses losses'] :
    Stands w (Addition.mk points losses) (Addition.mk points' losses') :=
  ⟨hp, hl⟩

end Instances

variable {R β : Type} [Number R] [Mirror R (Formula R) β] [Scalar β R Unit] [ScalarMirror R β]
  {w : World R}

namespace Simulates

open Placement

variable {A : Basis R} {a b : Point (Formula R)} {a' b' : Point β}

theorem nextVertex [Simplifies β w] {t : Turn (Formula R)} {t' : Turn β} [Stands w a a']
    [Stands w b b'] [Stands w t t'] :
    Simulates (OnGraph A) w (Placement.nextVertex a b t) (Placement.nextVertex a' b' t') :=
  .bind .unary <| .bind .point_sub <| .bind .rotate <| .bind .point_add <|
    .bind .binaryConst <| .bind .binaryConst <| .bind .dist <| .bind .binary <|
    .bind .point_sub <| .bind .smul <| .bind .point_add <| .point_simplify

theorem walk [Simplifies β w] {turns : List (Turn (Formula R))} {turns' : List (Turn β)}
    [Stands w a a'] [Stands w b b'] [hturns : Stands w turns turns'] :
    Simulates (OnGraph A) w (Placement.walk a b turns) (Placement.walk a' b' turns') := by
  have hall : List.Forall₂ (Stands w) turns turns' := hturns.out
  clear hturns
  suffices h : ∀ w₁ a a' b b', w ≤ w₁ → Stands w₁ a a' → Stands w₁ b b' →
      Simulates (OnGraph A) w₁ (Placement.walk a b turns) (Placement.walk a' b' turns') from
    h w a a' b b' (le_refl w) inferInstance inferInstance
  induction hall with
  | nil => exact fun _ _ _ _ _ _ _ _ => .pure
  | @cons t t' turns turns' ht _ ih =>
      intro w₁ a a' b b' hle _ _
      have : Later w w₁ := ⟨hle⟩
      have : Stands w₁ t t' := ht.mono hle
      exact .bind .nextVertex fun {w₂ _ _ h _} =>
        .bind (ih w₂ _ _ _ _ (hle.trans h.le) inferInstance inferInstance) .pure

theorem closingLosses {n : Nat} {first : Formula R} {first' : β} {others : List (Formula R)}
    {others' : List β} {v : Walk (Formula R)} {v' : Walk β} [Stands w first first']
    [Stands w others others'] [Stands w a a'] [Stands w b b'] [Stands w v v'] :
    Simulates (OnGraph A) w (Placement.closingLosses n first others a b v)
      (Placement.closingLosses n first' others' a' b' v') :=
  .bind .sum <| .bind .binaryConst <| .bind .dist <| .bind .angle <| .bind .binary .pure

end Simulates

namespace Attempts

open Placement

variable [Uniform R] {A : Basis R}

theorem freePoint {name : String} :
    Attempts A w (freePoint name : Canvas.Attempt R (Graph R) (Point (Formula R)))
      (freePoint name : Canvas.Attempt R Unit (Point β)) :=
  .bind .sample <| .bind .sample .pure

theorem freePoints {names : List String} :
    Attempts A w (freePoints names : Canvas.Attempt R (Graph R) (Addition (Formula R) R))
      (freePoints names : Canvas.Attempt R Unit (Addition β R)) :=
  .bind (.mapM (fun _ => .bind .freePoint .pure) names) .pure

theorem sampledAngle {n i : Nat} :
    Attempts A w (sampledAngle n i : Canvas.Attempt R (Graph R) (Formula R))
      (sampledAngle n i : Canvas.Attempt R Unit β) :=
  .bind .sample <| .lift <| .bind .binaryConst <| .bind .unary <| .bind .binaryConst .binaryConst

theorem sampledScale {i : Nat} :
    Attempts A w (sampledScale i : Canvas.Attempt R (Graph R) (Formula R))
      (sampledScale i : Canvas.Attempt R Unit β) :=
  .bind .sample <| .lift <| .bind .binaryConst <| .bind .unary .binaryConst

theorem placePolygon [Simplifies β w] {names : List String} :
    Attempts A w (placePolygon names : Canvas.Attempt R (Graph R) (Addition (Formula R) R))
      (placePolygon names : Canvas.Attempt R Unit (Addition β R)) :=
  .bind .sampledAngle <| .bind (.mapM (fun _ => .sampledAngle) _) <|
    .bind .sampledScale <| .bind (.mapM (fun _ => .sampledScale) _) <|
    .lift <| .bind .point_const <| .bind .point_const <| .bind .walk <|
    .bind .closingLosses .pure

theorem apexShift {shape : TriangleShape} :
    Attempts A w (apexShift shape : Canvas.Attempt R (Graph R) (Formula R))
      (apexShift shape : Canvas.Attempt R Unit β) := by
  unfold Placement.apexShift
  split
  · exact .lift .const
  · exact .sample

theorem apexHeight {shape : TriangleShape} {y : Formula R} {x : β} [Stands w y x] :
    Attempts A w (apexHeight shape y) (apexHeight shape x) := by
  unfold Placement.apexHeight
  split
  · exact .lift <| .bind .const <| .bind .binary <| .bind .binary .unary
  split
  · exact .lift .const
  · exact .bind .sample <| .lift <| .bind .unary <| .bind .binaryConst .binaryConst

theorem apex {shape : TriangleShape} :
    Attempts A w (apex shape : Canvas.Attempt R (Graph R) (Point (Formula R)))
      (apex shape : Canvas.Attempt R Unit (Point β)) :=
  .bind .apexShift <| .bind .apexHeight .pure

theorem placeTriangle {shape : TriangleShape} {corner : Corner} {a b c : String} :
    Attempts A w
      (placeTriangle shape corner a b c : Canvas.Attempt R (Graph R) (Addition (Formula R) R))
      (placeTriangle shape corner a b c : Canvas.Attempt R Unit (Addition β R)) := by
  refine .bind (.lift .point_const) <| .bind (.lift .point_const) <| .bind .apex ?_
  intros
  cases corner <;> exact .pure

theorem place [Simplifies β w] {p : Placement} :
    Attempts A w (p.place : Canvas.Attempt R (Graph R) (Addition (Formula R) R))
      (p.place : Canvas.Attempt R Unit (Addition β R)) := by
  cases p with
  | free names => exact .freePoints
  | polygon names => exact .placePolygon
  | triangle shape corner a b c => exact .placeTriangle

end Attempts

end PlaneFigure
