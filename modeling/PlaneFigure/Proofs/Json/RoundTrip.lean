import PlaneFigure.Proofs.Json.Lexing

/-!
A document that is written can be read back. Where a value is due, its tokens complete it inside
the innermost open container, whatever follows, as long as the containers it needs may be opened.
-/

namespace PlaneFigure.Json

/-- The tokens of a value complete it wherever `n` more containers may be opened. -/
def Delivered (n : Nat) (v : Json) : Prop :=
  ∀ (stack : List Frame) (rest : List Token), n + stack.length ≤ maxDepth →
    (toTokens v ++ rest).foldlM ReaderState.step (.value stack) =
      rest.foldlM ReaderState.step (deliver v stack)

variable {n : Nat} {stack : List Frame}

/-- In a new array, a first item is read as any other. -/
theorem foldlM_firstItem (v : Json) (vs : List Json) (stack : List Frame) (rest : List Token) :
    (itemTokens (v :: vs) ++ rest).foldlM ReaderState.step (.firstItem stack) =
      (itemTokens (v :: vs) ++ rest).foldlM ReaderState.step (.value (.item [] :: stack)) := by
  cases v <;> cases vs <;> rfl

theorem Delivered.items {v : Json} {vs : List Json} (h : ∀ w ∈ v :: vs, Delivered n w)
    (hn : n + 1 + stack.length ≤ maxDepth) (before : List Json) (rest : List Token) :
    (itemTokens (v :: vs) ++ .closeArray :: rest).foldlM ReaderState.step
        (.value (.item before :: stack)) =
      rest.foldlM ReaderState.step (deliver (.array (before.reverse ++ v :: vs)) stack) := by
  have hroom (before : List Json) : n + (Frame.item before :: stack).length ≤ maxDepth := by
    rw [List.length_cons]
    omega
  induction vs generalizing v before with
  | nil =>
      refine (h v List.mem_cons_self _ _ (hroom before)).trans ?_
      change rest.foldlM _ (deliver (.array (v :: before).reverse) stack) = _
      rw [List.reverse_cons]
  | cons w ws ih =>
      obtain ⟨hv, hws⟩ := List.forall_mem_cons.mp h
      rw [itemTokens, List.append_assoc, hv _ _ (hroom before)]
      · refine (ih hws (v :: before)).trans ?_
        rw [List.reverse_cons, List.append_assoc, List.singleton_append]
      · exact List.cons_ne_nil w ws

theorem Delivered.members {m : String × Json} {ms : List (String × Json)}
    (h : ∀ w ∈ m :: ms, Delivered n w.2) (hn : n + 1 + stack.length ≤ maxDepth)
    (before : List (String × Json)) (rest : List Token) :
    (memberTokens (m :: ms) ++ .closeObject :: rest).foldlM ReaderState.step
        (.name before stack) =
      rest.foldlM ReaderState.step (deliver (.object (before.reverse ++ m :: ms)) stack) := by
  have hroom (before : List (String × Json)) (name : String) :
      n + (Frame.member before name :: stack).length ≤ maxDepth := by
    rw [List.length_cons]
    omega
  -- the name and the colon leave the reader where the value of the member is due
  have hname (before : List (String × Json)) (name : String) (ts : List Token) :
      (.string name.toList :: .colon :: ts : List Token).foldlM ReaderState.step
          (.name before stack) =
        ts.foldlM ReaderState.step (.value (.member before name :: stack)) := by
    change ts.foldlM _ (ReaderState.value (.member before (String.ofList name.toList) :: stack)) = _
    rw [String.ofList_toList]
  induction ms generalizing m before with
  | nil =>
      refine (hname before m.1 _).trans ((h m List.mem_cons_self _ _ (hroom before m.1)).trans ?_)
      change rest.foldlM _ (deliver (.object (m :: before).reverse) stack) = _
      rw [List.reverse_cons]
  | cons w ws ih =>
      obtain ⟨hm, hws⟩ := List.forall_mem_cons.mp h
      have htokens : memberTokens (m :: w :: ws) ++ .closeObject :: rest =
          .string m.1.toList :: .colon ::
            (toTokens m.2 ++ .comma :: (memberTokens (w :: ws) ++ .closeObject :: rest)) := by
        rw [memberTokens]
        · simp
        · exact List.cons_ne_nil w ws
      rw [htokens, hname, hm _ _ (hroom before m.1)]
      refine (ih hws (m :: before)).trans ?_
      rw [List.reverse_cons, List.append_assoc, List.singleton_append]

theorem Readable.delivered {v : Json} (h : Readable n v) : Delivered n v := by
  induction h with
  | null => exact fun _ _ _ => rfl
  | bool => exact fun _ _ _ => rfl
  | number => exact fun _ _ _ => rfl
  | string s =>
      intro stack rest _
      change rest.foldlM _ (deliver (.string (String.ofList s.toList)) stack) = _
      rw [String.ofList_toList]
  | @array n items _ ih =>
      intro stack rest hn
      have hopen : ReaderState.step (.value stack) .openArray = some (.firstItem stack) :=
        if_pos (by omega)
      rw [toTokens, List.cons_append, List.append_assoc, List.foldlM_cons, hopen]
      cases items with
      | nil => rfl
      | cons v vs => exact (foldlM_firstItem v vs stack _).trans (Delivered.items ih hn [] rest)
  | @object n members _ ih =>
      intro stack rest hn
      have hopen : ReaderState.step (.value stack) .openObject = some (.firstName stack) :=
        if_pos (by omega)
      rw [toTokens, List.cons_append, List.append_assoc, List.foldlM_cons, hopen]
      cases members with
      | nil => rfl
      | cons m ms =>
          refine Eq.trans ?_ (Delivered.members ih hn [] rest)
          cases ms <;> rfl

theorem Readable.ofTokens?_toTokens {v : Json} (h : Readable maxDepth v) :
    ofTokens? (toTokens v) = some v := by
  have hrun := h.delivered [] [] (Nat.le_refl maxDepth)
  rw [List.append_nil] at hrun
  rw [ofTokens?, hrun]
  rfl

theorem Readable.parse?_render {v : Json} (h : Readable maxDepth v) : parse? v.render = some v := by
  rw [parse?, render, String.toList_ofList, h.tokens_compact, Option.bind_some,
    h.ofTokens?_toTokens]

theorem Readable.parse?_renderIndented {v : Json} (h : Readable maxDepth v) :
    parse? v.renderIndented = some v := by
  rw [parse?, renderIndented, String.toList_ofList, h.tokens_indented, Option.bind_some,
    h.ofTokens?_toTokens]

end PlaneFigure.Json
