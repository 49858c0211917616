import Mathlib
import PlaneFigure.Canvas

/-!
Which requests for variables are granted. The lengths of a shape are multiplied with 64 bits, so
before any length is compared with one, the product may not fit, and then the request ends in a fault.
-/

namespace PlaneFigure

namespace VariableRequest

variable {shape : List UInt64} {a b n : UInt64}

/-- How many numbers a shape has. -/
def entries (shape : List UInt64) : Nat := (shape.map UInt64.toNat).prod

/-- A shape of one number: every length is one. -/
def IsScalar (shape : List UInt64) : Prop := ∀ n ∈ shape, n = 1

instance : Decidable (IsScalar shape) := inferInstanceAs (Decidable (∀ n ∈ shape, n = 1))

/-- The first lengths of a shape have more numbers than 64 bits can count. A length of zero that
follows is too late. -/
def Overflows (shape : List UInt64) : Prop := ∃ front, front <+: shape ∧ 2 ^ 64 ≤ entries front

theorem product?_eq_some : product? a b = some n ↔
    a.toNat * b.toNat < 2 ^ 64 ∧ n.toNat = a.toNat * b.toNat := by
  unfold product?
  split
  next h =>
    rw [Option.some_inj, ← UInt64.toNat_inj, UInt64.toNat_mul, Nat.mod_eq_of_lt h, eq_comm]
    exact (and_iff_right h).symm
  next h => exact iff_of_false nofun fun hproduct => h hproduct.1

/-- Multiplied from the left, all products on the way are the exact ones. -/
theorem foldlM_product? : shape.foldlM product? a = some b ↔
    (∀ front, front <+: shape → a.toNat * entries front < 2 ^ 64) ∧
      b.toNat = a.toNat * entries shape := by
  induction shape generalizing a with
  | nil =>
      have hbound := a.toNat_lt
      simp [entries, ← UInt64.toNat_inj, eq_comm, hbound]
  | cons n shape ih =>
      have hcons : ∀ front, entries (n :: front) = n.toNat * entries front := fun _ => rfl
      have hfirst : [n] <+: n :: shape := ⟨shape, rfl⟩
      rw [List.foldlM_cons, Option.bind_eq_bind, Option.bind_eq_some_iff]
      constructor
      · rintro ⟨m, hm, hfold⟩
        obtain ⟨-, hm⟩ := product?_eq_some.mp hm
        obtain ⟨hfronts, hb⟩ := ih.mp hfold
        refine ⟨fun front hfront => ?_, by rw [hb, hm, hcons, mul_assoc]⟩
        obtain rfl | ⟨rest, rfl, hrest⟩ := List.prefix_cons_iff.mp hfront
        · simpa [entries] using a.toNat_lt
        · rw [hcons, ← mul_assoc, ← hm]
          exact hfronts rest hrest
      · rintro ⟨hfronts, hb⟩
        have hlt : a.toNat * n.toNat < 2 ^ 64 := by simpa [entries] using hfronts [n] hfirst
        have hm : (a * n).toNat = a.toNat * n.toNat := by
          rw [UInt64.toNat_mul, Nat.mod_eq_of_lt hlt]
        refine ⟨a * n, product?_eq_some.mpr ⟨hlt, hm⟩, ih.mpr ⟨fun front hfront => ?_, ?_⟩⟩
        · rw [hm, mul_assoc, ← hcons]
          exact hfronts _ (List.prefix_cons_inj n |>.mpr hfront)
        · rw [hb, hm, hcons, mul_assoc]

/-- A shape is counted just if nothing overflows, and the count is exact. -/
theorem count?_eq_some :
    count? shape = some b ↔ ¬ Overflows shape ∧ b.toNat = entries shape := by
  simp only [count?, foldlM_product?, UInt64.toNat_one, one_mul, Overflows, not_exists, not_and,
    not_le]

theorem count?_eq_none : count? shape = none ↔ Overflows shape := by
  constructor
  · intro h
    by_contra hfits
    have hlt : entries shape < 2 ^ 64 := by
      simp only [Overflows, not_exists, not_and, not_le] at hfits
      exact hfits shape (List.prefix_refl _)
    have hsome : count? shape = some (UInt64.ofNat (entries shape)) :=
      count?_eq_some.mpr ⟨hfits, UInt64.toNat_ofNat_of_lt' hlt⟩
    cases h.symm.trans hsome
  · intro h
    rw [Option.eq_none_iff_forall_ne_some]
    exact fun b hb => (count?_eq_some.mp hb).1 h

theorem entries_eq_one : entries shape = 1 ↔ IsScalar shape := by
  rw [entries, ← Nat.isUnit_iff, List.prod_isUnit_iff, List.forall_mem_map]
  refine forall₂_congr fun n _ => ?_
  rw [Nat.isUnit_iff, ← UInt64.toNat_one, UInt64.toNat_inj]

theorem IsScalar.not_overflows (h : IsScalar shape) : ¬ Overflows shape := by
  rintro ⟨front, hfront, hgreat⟩
  have hone : entries front = 1 := entries_eq_one.mpr fun n hn => h n (hfront.subset hn)
  omega

/-- A shape counts one just if it is one of one number. -/
theorem count?_eq_one : count? shape = some 1 ↔ IsScalar shape := by
  rw [count?_eq_some, UInt64.toNat_one, eq_comm, entries_eq_one]
  exact ⟨fun h => h.2, fun h => ⟨h.not_overflows, h⟩⟩

end VariableRequest

/-- The ends are finite and in order. -/
def Range.Proper (range : Range Float) : Prop :=
  range.low.isFinite = true ∧ range.high.isFinite = true ∧ ¬ range.high < range.low

instance (range : Range Float) : Decidable range.Proper :=
  inferInstanceAs (Decidable (_ ∧ _ ∧ ¬ _))

namespace VariableRequest

variable {r : VariableRequest Float}

theorem validate_of_overflows (h : Overflows r.shape) :
    r.validate = .error (.overflow r.shape) := by
  rw [validate, count?_eq_none.mpr h]
  rfl

theorem validate_of_not_isScalar (hfits : ¬ Overflows r.shape) (h : ¬ IsScalar r.shape) :
    r.validate = .error (.notScalar r.name r.shape) := by
  obtain ⟨n, hn⟩ := Option.ne_none_iff_exists'.mp (mt count?_eq_none.mp hfits)
  have hne : n ≠ 1 := by
    rintro rfl
    exact h (count?_eq_one.mp hn)
  rw [validate, hn]
  exact if_pos hne

theorem validate_of_not_proper (h : IsScalar r.shape) (hrange : ¬ r.range.Proper) :
    r.validate = .error (.badRange r.name r.range) := by
  have hbad : (!(r.range.low.isFinite && r.range.high.isFinite) ||
      decide (r.range.high < r.range.low)) = true := by
    rw [Range.Proper] at hrange
    simp only [Bool.or_eq_true, Bool.not_eq_true', Bool.and_eq_false_iff, decide_eq_true_iff]
    grind
  rw [validate, count?_eq_one.mpr h]
  exact if_pos hbad

theorem validate_of_proper (h : IsScalar r.shape) (hrange : r.range.Proper) :
    r.validate = .ok () := by
  obtain ⟨hlow, hhigh, horder⟩ := hrange
  have hgood : (!(r.range.low.isFinite && r.range.high.isFinite) ||
      decide (r.range.high < r.range.low)) = false := by
    simp [hlow, hhigh, horder]
  rw [validate, count?_eq_one.mpr h]
  exact if_neg (ne_true_of_eq_false hgood)

/-- A request is found valid just if it is one for one number and its range is proper. -/
theorem validate_eq_ok : r.validate = .ok () ↔ IsScalar r.shape ∧ r.range.Proper := by
  by_cases hfits : Overflows r.shape
  · have hnot : ¬ IsScalar r.shape := fun h => h.not_overflows hfits
    simp [validate_of_overflows hfits, hnot]
  by_cases h : IsScalar r.shape
  · by_cases hrange : r.range.Proper
    · simp [validate_of_proper h hrange, h, hrange]
    · simp [validate_of_not_proper h hrange, hrange]
  · simp [validate_of_not_isScalar hfits h, h]

end VariableRequest

namespace Canvas

open VariableRequest

variable {S μ : Type} [Scalar S Float μ] {r : VariableRequest Float} {c : Canvas Float μ}

theorem request_of_error {e : VariableError Float} (h : r.validate = .error e) :
    request (S := S) r c = (.error e, c) := by
  simp [request, h]

theorem request_of_undrawable (h : r.validate = .ok ())
    (hdraw : c.draws.canDraw r.name r.range = false) :
    request (S := S) r c = (.error (.undrawable r.range), c) := by
  simp [request, h, hdraw]

theorem request_of_canDraw (h : r.validate = .ok ())
    (hdraw : c.draws.canDraw r.name r.range = true) :
    ∃ x memory value draws, request (S := S) r c =
      (.ok x, { memory, draws, vars := c.vars.push ⟨r.name, r.range, value⟩ }) := by
  simp only [request, h, hdraw]
  exact ⟨_, _, _, _, rfl⟩

/-- A request ends in a fault just if the product of its shape overflows on the way. Otherwise it is
refused for its shape just if some length differs from one, then for its range just if this has no
finite ends in order; and then it fails only if there is a value to draw and none can be. Nothing
changes when it fails; when it is granted, exactly one variable is added, under the name requested. -/
theorem request_refused_iff (r : VariableRequest Float) (c : Canvas Float μ) :
    ((request (S := S) r c).1 = .error (.overflow r.shape) ↔ Overflows r.shape) ∧
    ((request (S := S) r c).1 = .error (.notScalar r.name r.shape) ↔
      ¬ Overflows r.shape ∧ ¬ IsScalar r.shape) ∧
    ((request (S := S) r c).1 = .error (.badRange r.name r.range) ↔
      IsScalar r.shape ∧ ¬ r.range.Proper) ∧
    (∀ e, (request (S := S) r c).1 = .error e → (request (S := S) r c).2 = c ∧
      (e = .overflow r.shape ∨ e = .notScalar r.name r.shape ∨ e = .badRange r.name r.range ∨
        e = .undrawable r.range ∧ c.draws.canDraw r.name r.range = false)) ∧
    (∀ x, (request (S := S) r c).1 = .ok x →
      ∃ value, (request (S := S) r c).2.vars = c.vars.push ⟨r.name, r.range, value⟩) := by
  by_cases hfits : Overflows r.shape
  · have hnot : ¬ IsScalar r.shape := fun h => h.not_overflows hfits
    simp [request_of_error (validate_of_overflows hfits), hfits, hnot]
  by_cases h : IsScalar r.shape
  · by_cases hrange : r.range.Proper
    · have hvalid := validate_of_proper h hrange
      cases hdraw : c.draws.canDraw r.name r.range with
      | false => simp [request_of_undrawable hvalid hdraw, hfits, h, hrange]
      | true =>
          obtain ⟨x, memory, value, draws, heq⟩ := request_of_canDraw (S := S) hvalid hdraw
          simpa [heq, hfits, h, hrange] using ⟨value, rfl⟩
    · simp [request_of_error (validate_of_not_proper h hrange), hfits, h, hrange]
  · simp [request_of_error (validate_of_not_isScalar hfits h), hfits, h]

/-- A shape that is not one of one number, and whose product does not fit into 64 bits once three of
its lengths are multiplied. -/
theorem request_overflow_product :
    let shape : List UInt64 := [4294967297, 4294967295, 4294967297, 4294967295]
    ¬ IsScalar shape ∧
      request (S := Float) ⟨"x", shape, ⟨-1.0, 1.0⟩⟩ (start () (.constant 0.25)) =
        (.error (.overflow shape), start () (.constant 0.25)) := by
  intro shape
  have hoverflows : Overflows shape := ⟨[4294967297, 4294967295, 4294967297], by decide, by decide⟩
  exact ⟨by simp [IsScalar, shape], request_of_error (validate_of_overflows hoverflows)⟩

end Canvas

end PlaneFigure
