import PlaneFigure.Proofs.Draft.Outline

/-!
Operations that take something for granted: that a list reaches as far as a position, that there are
as many operands as an operation takes, that a name is new, that there is something to divide by, that
a shape can be counted, and that a number can be drawn from a range. In this form they fault where
that does not hold. Steps with such operations in them do the same as steps without, if they never
fault.
-/

namespace PlaneFigure

/-- What was taken for granted and did not hold. -/
inductive Fault
  | position (i length : Nat)
  | slice (i length : Nat)
  | operandCount (expected given : Nat)
  | definedTwice (name : String)
  | noDivisor
  | overflow
  | undrawable
  deriving DecidableEq, Repr

section Lists

variable {α : Type} {l : List α} {i n : Nat} {a : α}

/-- The entry at a position. -/
def entry (l : List α) (i : Nat) : Except Fault α :=
  match l[i]? with
  | some a => .ok a
  | none => .error (.position i l.length)

/-- The entries from a position on. -/
def entriesFrom (l : List α) (i : Nat) : Except Fault (List α) :=
  if i ≤ l.length then .ok (l.drop i) else .error (.slice i l.length)

/-- The entries before a position. -/
def entriesBefore (l : List α) (i : Nat) : Except Fault (List α) :=
  if i ≤ l.length then .ok (l.take i) else .error (.slice i l.length)

def countOperands (expected : Nat) (l : List α) : Except Fault Unit :=
  if l.length = expected then .ok () else .error (.operandCount expected l.length)

/-- A number to divide by. -/
def divisor (n : Nat) : Except Fault Nat := if n = 0 then .error .noDivisor else .ok n

theorem entry_eq_ok (h : l[i]? = some a) : entry l i = .ok a := by
  rw [entry, h]

theorem entriesFrom_eq_ok (h : i ≤ l.length) : entriesFrom l i = .ok (l.drop i) := if_pos h

theorem divisor_eq_ok (h : n ≠ 0) : divisor n = .ok n := if_neg h

end Lists

/-- Steps on a memory that may fault. -/
abbrev Guarded (σ α : Type) := StateT σ (Except Fault) α

namespace Guarded

variable {R σ μ α β γ : Type}

/-- Steps that take nothing for granted. -/
def ofTotal (act : StateM σ α) : Guarded σ α := fun s => .ok (act s)

instance : MonadLift (StateM σ) (Guarded σ) := ⟨ofTotal⟩

/-- Steps on the memory of a canvas. -/
def onMemory (g : Guarded μ α) : Guarded (Canvas R μ) α := fun c =>
  (g c.memory).map fun (a, memory) => (a, { c with memory })

/-- The steps never fault, and do what the others do. -/
def Does (g : Guarded σ α) (act : StateM σ α) : Prop := ∀ s, g s = .ok (act s)

namespace Does

variable {g : Guarded σ α} {act : StateM σ α}

theorem pure (a : α) : Does (Pure.pure a : Guarded σ α) (Pure.pure a) := fun _ => rfl

theorem total (act : StateM σ α) : Does (liftM act : Guarded σ α) act := fun _ => rfl

/-- What the other steps are known to lead to may be used in what follows, also if the steps lead
only to a part of it. -/
theorem bind_map {f : γ → α} {act : StateM σ γ} {next : α → Guarded σ β} {next' : γ → StateM σ β}
    {P : γ → Prop} (h : g.Does (f <$> act)) (hP : ∀ s, P (act s).1)
    (hnext : ∀ c, P c → (next (f c)).Does (next' c)) : (g >>= next).Does (act >>= next') := by
  intro s
  change (g s >>= fun r => next r.1 r.2) = _
  rw [h s]
  exact hnext _ (hP s) _

theorem bind {next : α → Guarded σ β} {next' : α → StateM σ β} (h : g.Does act)
    (hnext : ∀ a, (next a).Does (next' a)) : (g >>= next).Does (act >>= next') :=
  bind_map (f := id) (P := fun _ => True) h (fun _ => trivial) fun a _ => hnext a

/-- What was taken for granted holds. -/
theorem granted {x : Except Fault α} {a : α} {next : α → Guarded σ β} {act : StateM σ β}
    (hx : x = .ok a) (hnext : (next a).Does act) : ((liftM x : Guarded σ α) >>= next).Does act := by
  subst hx
  exact hnext

end Does

/-! ### Variables -/

/-- Steps on a canvas that may fault, or end with the first variable that is refused. -/
abbrev Attempt (R μ : Type) := ExceptT (VariableError R) (Guarded (Canvas R μ))

/-- A shape that cannot be counted and a range from which no number can be drawn are faults and not
refusals. -/
def drawn : Except (VariableError R) α × Canvas R μ →
    Except Fault (Except (VariableError R) α × Canvas R μ)
  | (.error (.overflow _), _) => .error .overflow
  | (.error (.undrawable _), _) => .error .undrawable
  | r => .ok r

def ofAttempt (act : Canvas.Attempt R μ α) : Attempt R μ α :=
  ExceptT.mk fun c => drawn (act.run c)

instance : MonadLift (Guarded μ) (Attempt R μ) :=
  ⟨fun g => ExceptT.lift (Guarded.onMemory g)⟩

namespace Does

theorem ofAttempt {act : Canvas.Attempt R μ α} (h : act.Granted) :
    (Guarded.ofAttempt act).run.Does act.run := by
  intro c
  obtain ⟨a, c', hrun⟩ := h c
  change drawn (act.run c) = _
  rw [hrun]
  rfl

theorem attempt_pure (a : α) :
    (Pure.pure a : Attempt R μ α).run.Does (Pure.pure a : Canvas.Attempt R μ α).run :=
  fun _ => rfl

theorem attempt_bind_of {g : Attempt R μ α} {act : Canvas.Attempt R μ α}
    {next : α → Attempt R μ β} {next' : α → Canvas.Attempt R μ β} {names : List String}
    {P : α → Prop} (h : g.run.Does act.run) (hP : act.Leaves names P)
    (hnext : ∀ a, P a → (next a).run.Does (next' a).run) :
    (g >>= next).run.Does (act >>= next').run := by
  intro c
  change (g.run c >>= fun r => ExceptT.bindCont next r.1 r.2) =
    .ok (ExceptT.bindCont next' (act.run c).1 (act.run c).2)
  rw [h c]
  rcases hact : act.run c with ⟨e | a, c'⟩
  · rfl
  · exact hnext a (hP c a c' hact).1 c'

theorem attempt_mapM {f : γ → Attempt R μ α} {f' : γ → Canvas.Attempt R μ α}
    {names : γ → List String} (hf : ∀ x, (f x).run.Does (f' x).run)
    (hleaves : ∀ x, (f' x).Leaves (names x) fun _ => True) (l : List γ) :
    (l.mapM f).run.Does (l.mapM f').run := by
  induction l with
  | nil => exact attempt_pure []
  | cons x l ih =>
      rw [List.mapM_cons, List.mapM_cons]
      exact attempt_bind_of (hf x) (hleaves x) fun a _ =>
        attempt_bind_of ih (.mapM hleaves l) fun as _ => attempt_pure (a :: as)

theorem attempt_lift {g : Guarded μ α} {act : StateM μ α} (h : g.Does act) :
    (liftM g : Attempt R μ α).run.Does (liftM act : Canvas.Attempt R μ α).run := by
  intro c
  change ((g c.memory).map _ >>= _) = _
  rw [h c.memory]
  rfl

end Does

end Guarded

end PlaneFigure
