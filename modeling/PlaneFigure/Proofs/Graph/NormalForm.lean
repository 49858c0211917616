import PlaneFigure.Proofs.Graph.Denotation

/-!
Normal forms of expressions. An expression is normal if no rule applies to any part of it. One
simplification is enough to get there: a rule leaves parts that were normal before, and what it puts
on top of them is met by no other rule. Where constants were folded from the beginning, nothing of
this depends on whether the rules for negations were applied before.
-/

namespace PlaneFigure

/-- The operations that the rules for negations are about. -/
def UnaryOp.HasSymmetry (op : UnaryOp) : Prop := op = .neg ∨ op = .sin ∨ op = .cos

namespace Expression

variable {R : Type} [Number R] {how : RuleSet} {op : UnaryOp} {bop : BinaryOp}
  {e x y l r : Expression R}

/-- A rule for neutral constants applies to an operation on these operands. -/
def Neutralized (how : RuleSet) (op : BinaryOp) (l r : Expression R) : Prop :=
  how = .all ∧ match op with
    | .add => l.isConst 0.0 ∨ r.isConst 0.0
    | .sub => r.isConst 0.0
    | .mul => l.isConst 1.0 ∨ r.isConst 1.0
    | .div => r.isConst 1.0
    | .max => False

/-- No operation is left that could be carried out. -/
def Folded : Expression R → Prop
  | const _ => True
  | var _ => True
  | unary _ x => x.Folded ∧ x.const? = none
  | binary _ l r => l.Folded ∧ r.Folded ∧ (l.const? = none ∨ r.const? = none)

/-- No rule applies, and no operation is left that could be carried out. -/
def Normal (how : RuleSet) : Expression R → Prop
  | const _ => True
  | var _ => True
  | unary op x => x.Normal how ∧ x.const? = none ∧ (op.HasSymmetry → x.negated? = none)
  | binary op l r =>
    l.Normal how ∧ r.Normal how ∧ (l.const? = none ∨ r.const? = none) ∧ ¬ Neutralized how op l r

theorem Normal.folded (h : e.Normal how) : e.Folded := by
  induction e with
  | const c => trivial
  | var i => trivial
  | unary op x ih => exact ⟨ih h.1, h.2.1⟩
  | binary op l r ihl ihr => exact ⟨ihl h.1, ihr h.2.1, h.2.2.1⟩

omit [Number R] in
theorem folded_hereditary : Hereditary (Folded (R := R)) :=
  ⟨fun h => h.1, fun h => ⟨h.1, h.2.1⟩⟩

theorem normal_hereditary (how : RuleSet) : Hereditary (Normal (R := R) how) :=
  ⟨fun h => h.1, fun h => ⟨h.1, h.2.1⟩⟩

/-! ### Folding -/

theorem applyUnary_eq_unary (hx : x.const? = none) : x.applyUnary op = unary op x := by
  simp [applyUnary, hx]

theorem applyBinary_eq_binary (h : l.const? = none ∨ r.const? = none) :
    applyBinary bop l r = binary bop l r := by
  unfold applyBinary
  obtain h | h := h
  · simp [h]
  · cases l.const? <;> simp [h]

theorem applyUnary_folded (hx : x.Folded) : (x.applyUnary op).Folded := by
  unfold applyUnary
  split
  · trivial
  next hconst => exact ⟨hx, hconst⟩

theorem applyBinary_folded (hl : l.Folded) (hr : r.Folded) : (applyBinary bop l r).Folded := by
  unfold applyBinary
  split
  · trivial
  next hnot =>
    refine ⟨hl, hr, ?_⟩
    cases hcl : l.const? with
    | none => exact .inl rfl
    | some a =>
        cases hcr : r.const? with
        | none => exact .inr rfl
        | some b => exact (hnot a b hcl hcr).elim

theorem applyUnary_normal (hx : x.Normal how) (hneg : op.HasSymmetry → x.negated? = none) :
    (x.applyUnary op).Normal how := by
  unfold applyUnary
  split
  · trivial
  next hconst => exact ⟨hx, hconst, hneg⟩

theorem applyBinary_normal (hl : l.Normal how) (hr : r.Normal how)
    (hneutral : ¬ Neutralized how bop l r) : (applyBinary bop l r).Normal how := by
  have hfolded : (applyBinary bop l r).Folded := applyBinary_folded hl.folded hr.folded
  unfold applyBinary at hfolded ⊢
  split
  · trivial
  next hnot =>
    simp only at hfolded
    exact ⟨hl, hr, hfolded.2.2, hneutral⟩

/-! ### The rules -/

/-- Where no rule for negations applies, the operation is all there is. -/
theorem simplifyUnary_eq_applyUnary (h : op.HasSymmetry → x.negated? = none) :
    x.simplifyUnary op = x.applyUnary op := by
  unfold simplifyUnary
  cases hneg : x.negated? with
  | none => cases op <;> rfl
  | some y => cases op <;> simp_all [UnaryOp.HasSymmetry]

theorem simplifyUnary_neg_neg (y : Expression R) : (unary .neg y).simplifyUnary .neg = y := rfl

theorem simplifyUnary_sin_neg (hy : y.const? = none) :
    (unary .neg y).simplifyUnary .sin = unary .neg (unary .sin y) := by
  show (y.applyUnary .sin).applyUnary .neg = _
  rw [applyUnary_eq_unary hy]
  rfl

theorem simplifyUnary_cos_neg (hy : y.const? = none) :
    (unary .neg y).simplifyUnary .cos = unary .cos y :=
  applyUnary_eq_unary hy

/-- Where no rule for neutral constants applies, the operation is all there is. -/
theorem simplifyBinary_eq_applyBinary (h : ¬ Neutralized how bop l r) :
    simplifyBinary how bop l r = applyBinary bop l r := by
  unfold simplifyBinary
  cases how with
  | trig => cases bop <;> rfl
  | all => cases bop <;> simp_all [Neutralized]

/-- An operation is carried out or kept, or it is the other operand of a constant. -/
theorem simplifyBinary_cases (how : RuleSet) (op : BinaryOp) (l r : Expression R) :
    (simplifyBinary how op l r = l ∧ r.const? ≠ none) ∨
      (simplifyBinary how op l r = r ∧ l.const? ≠ none) ∨
      (simplifyBinary how op l r = applyBinary op l r ∧ ¬ Neutralized how op l r) := by
  have hconst : ∀ {e : Expression R} {c}, e.isConst c → e.const? ≠ none := by
    intro e c he
    obtain ⟨d, rfl, -⟩ := isConst_eq_true he
    exact Option.some_ne_none d
  by_cases h : Neutralized how op l r
  · obtain ⟨rfl, hneutral⟩ := h
    cases op with
    | max => exact hneutral.elim
    | sub => exact .inl ⟨if_pos hneutral, hconst hneutral⟩
    | div => exact .inl ⟨if_pos hneutral, hconst hneutral⟩
    | _ =>
        simp only [simplifyBinary]
        split
        next hr => exact .inl ⟨rfl, hconst hr⟩
        next hr =>
          have hl := hneutral.resolve_right hr
          exact .inr (.inl ⟨if_pos hl, hconst hl⟩)
  · exact .inr (.inr ⟨simplifyBinary_eq_applyBinary h, h⟩)

/-- A negation, sine or cosine of something normal is normal. -/
theorem simplifyUnary_normal (hx : x.Normal how) : (x.simplifyUnary op).Normal how := by
  by_cases hneg : op.HasSymmetry → x.negated? = none
  · rw [simplifyUnary_eq_applyUnary hneg]
    exact applyUnary_normal hx hneg
  · obtain ⟨hop, hsome⟩ := Classical.not_imp.mp hneg
    obtain ⟨y, hy⟩ := Option.ne_none_iff_exists'.mp hsome
    obtain rfl := negated?_eq_some hy
    obtain ⟨hnormal, hconst, hnot⟩ := hx
    -- below a negation there is no other, so what is put on it is met by no rule
    have hy' : y.negated? = none := hnot (.inl rfl)
    obtain rfl | rfl | rfl := hop
    · exact hnormal
    · rw [simplifyUnary_sin_neg hconst]
      exact ⟨⟨hnormal, hconst, fun _ => hy'⟩, rfl, fun _ => rfl⟩
    · rw [simplifyUnary_cos_neg hconst]
      exact ⟨hnormal, hconst, fun _ => hy'⟩

theorem simplifyBinary_normal (hl : l.Normal how) (hr : r.Normal how) :
    (simplifyBinary how bop l r).Normal how := by
  obtain ⟨heq, -⟩ | ⟨heq, -⟩ | ⟨heq, hneutral⟩ := simplifyBinary_cases how bop l r <;> rw [heq]
  · exact hl
  · exact hr
  · exact applyBinary_normal hl hr hneutral

/-- A simplified expression is normal. -/
theorem simplify_normal (how : RuleSet) (e : Expression R) : (e.simplify how).Normal how := by
  induction e with
  | const c => trivial
  | var i => trivial
  | unary op x ih => exact simplifyUnary_normal ih
  | binary op l r ihl ihr => exact simplifyBinary_normal ihl ihr

/-- A normal expression is left as it is. -/
theorem simplify_of_normal (h : e.Normal how) : e.simplify how = e := by
  induction e with
  | const c => rfl
  | var i => rfl
  | unary op x ih =>
      obtain ⟨hx, hconst, hneg⟩ := h
      rw [simplify, ih hx, simplifyUnary_eq_applyUnary hneg, applyUnary_eq_unary hconst]
  | binary op l r ihl ihr =>
      obtain ⟨hl, hr, hconst, hneutral⟩ := h
      rw [simplify, ihl hl, ihr hr, simplifyBinary_eq_applyBinary hneutral,
        applyBinary_eq_binary hconst]

/-! ### One set of rules after the other -/

/-- What is no constant becomes none, since rules drop nothing but constants. -/
theorem simplify_const?_eq_none (he : e.Folded) (hconst : e.const? = none) :
    (e.simplify how).const? = none := by
  induction e with
  | const c => cases hconst
  | var i => rfl
  | unary op x ih =>
      obtain ⟨hx, hxconst⟩ := he
      have hx' := ih hx hxconst
      rw [simplify]
      by_cases hneg : op.HasSymmetry → (x.simplify how).negated? = none
      · rw [simplifyUnary_eq_applyUnary hneg, applyUnary_eq_unary hx']
        rfl
      · obtain ⟨hop, hsome⟩ := Classical.not_imp.mp hneg
        obtain ⟨y, hy⟩ := Option.ne_none_iff_exists'.mp hsome
        have hnormal := simplify_normal how x
        rw [negated?_eq_some hy] at hnormal ⊢
        obtain ⟨-, hyconst, -⟩ := hnormal
        obtain rfl | rfl | rfl := hop
        · exact hyconst
        · rw [simplifyUnary_sin_neg hyconst]
          rfl
        · rw [simplifyUnary_cos_neg hyconst]
          rfl
  | binary op l r ihl ihr =>
      obtain ⟨hl, hr, hlr⟩ := he
      have hl' : l.const? = none → (l.simplify how).const? = none := ihl hl
      have hr' : r.const? = none → (r.simplify how).const? = none := ihr hr
      rw [simplify]
      obtain ⟨heq, hsome⟩ | ⟨heq, hsome⟩ | ⟨heq, -⟩ :=
        simplifyBinary_cases how op (l.simplify how) (r.simplify how) <;> rw [heq]
      · exact hl' (hlr.resolve_right fun h => hsome (hr' h))
      · exact hr' (hlr.resolve_left fun h => hsome (hl' h))
      · rw [applyBinary_eq_binary (hlr.imp hl' hr')]
        rfl

/-- A normal expression has no negation on top, or one negation above an expression without. -/
theorem Normal.negations (he : e.Normal how) (hconst : e.const? = none) :
    (∀ op, e.simplifyUnary op = unary op e) ∨
      ∃ x, e = unary .neg x ∧ x.const? = none ∧ ∀ op, x.simplifyUnary op = unary op x := by
  have hkept : ∀ {y : Expression R} (op), y.const? = none → y.negated? = none →
      y.simplifyUnary op = unary op y := by
    intro y op hy hnot
    rw [simplifyUnary_eq_applyUnary fun _ => hnot, applyUnary_eq_unary hy]
  cases hneg : e.negated? with
  | none => exact .inl fun op => hkept op hconst hneg
  | some x =>
      obtain rfl := negated?_eq_some hneg
      obtain ⟨-, hx, hnot⟩ := he
      exact .inr ⟨x, rfl, hx, fun op => hkept op hx (hnot (.inl rfl))⟩

theorem simplifyUnary_neg_involutive (he : e.Normal how) (hconst : e.const? = none) :
    (e.simplifyUnary .neg).simplifyUnary .neg = e := by
  obtain hkept | ⟨x, rfl, hx, hkept⟩ := he.negations hconst
  · rw [hkept, simplifyUnary_neg_neg]
  · rw [simplifyUnary_neg_neg, hkept]

theorem simplifyUnary_sin_odd (he : e.Normal how) (hconst : e.const? = none) :
    (e.simplifyUnary .neg).simplifyUnary .sin = (e.simplifyUnary .sin).simplifyUnary .neg := by
  obtain hkept | ⟨x, rfl, hx, hkept⟩ := he.negations hconst
  · rw [hkept, hkept, simplifyUnary_sin_neg hconst]
    rfl
  · rw [simplifyUnary_neg_neg, hkept, simplifyUnary_sin_neg hx, simplifyUnary_neg_neg]

theorem simplifyUnary_cos_even (he : e.Normal how) (hconst : e.const? = none) :
    (e.simplifyUnary .neg).simplifyUnary .cos = e.simplifyUnary .cos := by
  obtain hkept | ⟨x, rfl, hx, hkept⟩ := he.negations hconst
  · rw [hkept, hkept, simplifyUnary_cos_neg hconst]
  · rw [simplifyUnary_neg_neg, hkept, simplifyUnary_cos_neg hx]

/-- It makes no difference whether the rules for negations are used before the operand is simplified
by all rules, or after it. -/
theorem simplifyUnary_simplify (hx : x.Normal .trig) (hconst : x.const? = none) :
    (x.simplifyUnary op).simplify .all = (x.simplify .all).simplifyUnary op := by
  by_cases hneg : op.HasSymmetry → x.negated? = none
  · rw [simplifyUnary_eq_applyUnary hneg, applyUnary_eq_unary hconst, simplify]
  obtain ⟨hop, hsome⟩ := Classical.not_imp.mp hneg
  obtain ⟨y, hy⟩ := Option.ne_none_iff_exists'.mp hsome
  obtain rfl := negated?_eq_some hy
  obtain ⟨hynormal, hyconst, -⟩ := hx
  have hnormal : (y.simplify .all).Normal .all := simplify_normal .all y
  have hconst' : (y.simplify .all).const? = none :=
    simplify_const?_eq_none hynormal.folded hyconst
  rw [simplify]
  obtain rfl | rfl | rfl := hop
  · rw [simplifyUnary_neg_neg, simplifyUnary_neg_involutive hnormal hconst']
  · rw [simplifyUnary_sin_neg hyconst, simplify, simplify, simplifyUnary_sin_odd hnormal hconst']
  · rw [simplifyUnary_cos_neg hyconst, simplify, simplifyUnary_cos_even hnormal hconst']

/-- All rules after those for negations come to the same as all rules at once. -/
theorem simplify_trig_all (he : e.Folded) : (e.simplify .trig).simplify .all = e.simplify .all := by
  induction e with
  | const c => rfl
  | var i => rfl
  | unary op x ih =>
      obtain ⟨hx, hconst⟩ := he
      rw [simplify, simplifyUnary_simplify (simplify_normal .trig x)
        (simplify_const?_eq_none hx hconst), ih hx, simplify]
  | binary op l r ihl ihr =>
      obtain ⟨hl, hr, hconst⟩ := he
      have htrig : ¬ Neutralized .trig op (l.simplify .trig) (r.simplify .trig) := fun h =>
        RuleSet.noConfusion h.1
      rw [simplify, simplifyBinary_eq_applyBinary htrig, applyBinary_eq_binary
        (hconst.imp (simplify_const?_eq_none hl) (simplify_const?_eq_none hr)), simplify, ihl hl,
        ihr hr, simplify]

end Expression

end PlaneFigure
