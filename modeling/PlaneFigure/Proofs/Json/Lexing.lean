import Mathlib.Tactic.SplitIfs
import PlaneFigure.Json.Reader
import PlaneFigure.Json.Writer

/-!
The lexer undoes the writer: an escaped string is read back character by character, and both
layouts of a document consist of the tokens of that document.
-/

namespace PlaneFigure.Json

variable {c : Char} {cs rest : List Char}

/-! ### Strings -/

theorem hex4?_control : ∀ n < 0x20,
    hex4? '0' '0' (hexDigit (n / 16)) (hexDigit (n % 16)) = some n := by
  decide

theorem readString_hex {a b d e : Char} (h : (hex4? a b d e).bind scalarChar? = some c) :
    readString ('\\' :: 'u' :: a :: b :: d :: e :: rest) =
      (readString rest).map fun (s, rest) => (c :: s, rest) := by
  rw [readString.eq_def]
  simp only [h]

theorem readString_plain (hquote : c ≠ '"') (h : ¬(c = '\\' ∨ c.toNat < 0x20)) :
    readString (c :: rest) = (readString rest).map fun (s, rest) => (c :: s, rest) := by
  have hslash : c ≠ '\\' := fun hc => h (.inl hc)
  rw [readString.eq_6 c rest hquote (fun _ _ _ _ _ hc => absurd hc hslash)
    (fun _ _ hc => absurd hc hslash), if_neg h]

/-- A character is written by a letter after a backslash, by the digits of its code, or as it is. -/
theorem escapeChar_cases (c : Char) :
    (∃ e, escapeChar c = ['\\', e] ∧ e ≠ 'u' ∧ escaped? e = some c) ∨
      (c.toNat < 0x20 ∧ escapeChar c =
        ['\\', 'u', '0', '0', hexDigit (c.toNat / 16), hexDigit (c.toNat % 16)]) ∨
      (c ≠ '"' ∧ ¬(c = '\\' ∨ c.toNat < 0x20) ∧ escapeChar c = [c]) := by
  unfold escapeChar
  split_ifs with h₁ h₂ h₃ h₄ h₅ h₆ h₇ h₈
  any_goals
    subst c
    exact .inl ⟨_, rfl, by decide, rfl⟩
  · exact .inr (.inl ⟨h₈, rfl⟩)
  · exact .inr (.inr ⟨h₁, not_or.mpr ⟨h₂, h₈⟩, rfl⟩)

theorem readString_escapeChar (c : Char) (rest : List Char) :
    readString (escapeChar c ++ rest) = (readString rest).map fun (s, rest) => (c :: s, rest) := by
  obtain ⟨e, hc, hu, he⟩ | ⟨hcontrol, hc⟩ | ⟨hquote, hplain, hc⟩ := escapeChar_cases c <;> rw [hc]
  · change readString ('\\' :: e :: rest) = _
    rw [readString.eq_5 e rest fun _ _ _ _ _ h => absurd h hu, he]
    rfl
  · -- no control character is a surrogate
    refine readString_hex ?_
    rw [hex4?_control _ hcontrol, Option.bind_some, scalarChar?, Char.ofNat_toNat,
      if_pos (.inl (Nat.lt_trans hcontrol (by decide)))]
  · exact readString_plain hquote hplain

theorem readString_quoted (s rest : List Char) :
    readString (s.flatMap escapeChar ++ '"' :: rest) = some (s, rest) := by
  induction s with
  | nil => rfl
  | cons c s ih =>
      rw [List.flatMap_cons, List.append_assoc, readString_escapeChar, ih]
      rfl

theorem tokens_quoted (s : String) (rest : List Char) :
    tokens (quoted s ++ rest) = (tokens rest).map (.string s.toList :: ·) := by
  rw [quoted, List.cons_append, List.append_assoc, tokens]
  split
  next s' rest' h =>
    rw [List.singleton_append, readString_quoted] at h
    cases h
    rfl
  next h =>
    rw [List.singleton_append, readString_quoted] at h
    cases h

/-! ### Symbols, blanks, words -/

/-- The characters that are tokens. -/
inductive Symbol : Char → Token → Prop
  | openArray : Symbol '[' .openArray
  | closeArray : Symbol ']' .closeArray
  | openObject : Symbol '{' .openObject
  | closeObject : Symbol '}' .closeObject
  | comma : Symbol ',' .comma
  | colon : Symbol ':' .colon

theorem Symbol.tokens_cons {t : Token} (h : Symbol c t) :
    tokens (c :: cs) = (tokens cs).map (t :: ·) := by
  cases h <;> rw [tokens]

theorem Symbol.isWordChar_eq_false {t : Token} (h : Symbol c t) : isWordChar c = false := by
  cases h <;> decide

theorem tokens_cons_of_not_symbol (hsymbol : ∀ t, ¬Symbol c t) (hquote : c ≠ '"') :
    tokens (c :: cs) =
      if isBlank c then tokens cs
      else (wordToken? (c :: cs.takeWhile isWordChar)).bind fun token =>
        (tokens (cs.dropWhile isWordChar)).map (token :: ·) := by
  have other {d : Char} {t : Token} (h : Symbol d t) : c ≠ d := by
    rintro rfl
    exact hsymbol t h
  exact tokens.eq_9 c cs (other .openArray) (other .closeArray) (other .openObject)
    (other .closeObject) (other .comma) (other .colon) hquote

theorem tokens_blank (hc : isBlank c) : tokens (c :: cs) = tokens cs := by
  have hsymbol : ∀ t, ¬Symbol c t := by
    rintro t ⟨⟩ <;> exact absurd hc (by decide)
  have hquote : c ≠ '"' := by
    rintro rfl
    exact absurd hc (by decide)
  rw [tokens_cons_of_not_symbol hsymbol hquote, if_pos hc]

/-- What follows a word is no part of it. -/
def EndsWord (rest : List Char) : Prop := ∀ c ∈ rest.head?, isWordChar c = false

theorem endsWord_nil : EndsWord [] := by
  rintro c ⟨⟩

theorem tokens_word {word : List Char} {t : Token} (hword : ∀ c ∈ word, isWordChar c)
    (ht : wordToken? word = some t) (hrest : EndsWord rest) :
    tokens (word ++ rest) = (tokens rest).map (t :: ·) := by
  have hnone : rest.takeWhile isWordChar = [] ∧ rest.dropWhile isWordChar = rest := by
    cases rest with
    | nil => exact ⟨rfl, rfl⟩
    | cons d rest => simp [hrest d rfl]
  cases word with
  | nil => cases ht
  | cons c word =>
      obtain ⟨hc, hword⟩ := List.forall_mem_cons.mp hword
      have hother : ∀ d, isWordChar d = false → c ≠ d := by
        rintro d hd rfl
        exact Bool.noConfusion (hd.symm.trans hc)
      have hblank : ¬isBlank c = true := by
        simp [isBlank, hother ' ' rfl, hother '\n' rfl, hother '\t' rfl, hother '\r' rfl]
      rw [List.cons_append, tokens_cons_of_not_symbol
        (fun t h => Bool.noConfusion (h.isWordChar_eq_false.symm.trans hc)) (hother '"' rfl),
        if_neg hblank, List.takeWhile_append_of_pos hword, List.dropWhile_append_of_pos hword,
        hnone.1, hnone.2, List.append_nil, ht]
      rfl

/-! ### Documents -/

mutual

/-- The tokens of a document. -/
def toTokens : Json → List Token
  | .array items => .openArray :: (itemTokens items ++ [.closeArray])
  | .object members => .openObject :: (memberTokens members ++ [.closeObject])
  | .string s => [.string s.toList]
  | v => [.scalar v]

def itemTokens : List Json → List Token
  | [] => []
  | [v] => toTokens v
  | v :: vs => toTokens v ++ .comma :: itemTokens vs

def memberTokens : List (String × Json) → List Token
  | [] => []
  | [(name, v)] => .string name.toList :: .colon :: toTokens v
  | (name, v) :: ms => .string name.toList :: .colon :: (toTokens v ++ .comma :: memberTokens ms)

end

/-- A document that the reader can give back: no value stands in more than `n` containers, and
every number is written as a word that is that number. -/
inductive Readable : Nat → Json → Prop
  | null {n : Nat} : Readable n .null
  | bool {n : Nat} (b : Bool) : Readable n (.bool b)
  | number {n : Nat} {literal : String} (hword : ∀ c ∈ literal.toList, isWordChar c)
      (h : wordToken? literal.toList = some (.scalar (.number literal))) :
      Readable n (.number literal)
  | string {n : Nat} (s : String) : Readable n (.string s)
  | array {n : Nat} {items : List Json} (h : ∀ v ∈ items, Readable n v) :
      Readable (n + 1) (.array items)
  | object {n : Nat} {members : List (String × Json)} (h : ∀ m ∈ members, Readable n m.2) :
      Readable (n + 1) (.object members)

theorem readable_strings {n : Nat} (xs : List String) : Readable (n + 1) (.strings xs) :=
  .array (List.forall_mem_map.mpr fun s _ => .string s)

/-- A text is lexed to given tokens, whatever follows that is no part of its last word. -/
def Lexes (cs : List Char) (ts : List Token) : Prop :=
  ∀ rest, EndsWord rest → tokens (cs ++ rest) = (tokens rest).map (ts ++ ·)

namespace Lexes

variable {ds : List Char} {ts us : List Token} {t : Token}

theorem nil : Lexes [] [] := by
  intro rest _
  cases h : tokens rest <;> simp [h]

theorem symbol (hc : Symbol c t) (h : Lexes cs ts) : Lexes (c :: cs) (t :: ts) := by
  intro rest hrest
  rw [List.cons_append, hc.tokens_cons, h rest hrest, Option.map_map]
  rfl

theorem blank (hc : isBlank c) (h : Lexes cs ts) : Lexes (c :: cs) ts :=
  fun rest hrest => (tokens_blank hc).trans (h rest hrest)

theorem newline (level : Nat) (h : Lexes cs ts) : Lexes (newline level ++ cs) ts := by
  refine blank rfl ?_
  induction 2 * level with
  | zero => exact h
  | succ n ih => exact blank rfl ih

/-- A text that does not begin with a part of a word can follow any other. -/
theorem append (h : Lexes cs ts) (h' : Lexes (c :: ds) us) (hc : isWordChar c = false) :
    Lexes (cs ++ c :: ds) (ts ++ us) := by
  intro rest hrest
  rw [List.append_assoc, h _ (by simpa [EndsWord] using hc), h' rest hrest, Option.map_map]
  simp [Function.comp_def]

theorem quoted (s : String) : Lexes (quoted s) [.string s.toList] :=
  fun rest _ => tokens_quoted s rest

theorem word {word : List Char} (hword : ∀ c ∈ word, isWordChar c)
    (ht : wordToken? word = some t) : Lexes word [t] :=
  fun _ hrest => tokens_word hword ht hrest

theorem items_compact {items : List Json} (h : ∀ v ∈ items, Lexes (compact v) (toTokens v)) :
    Lexes (compactItems items) (itemTokens items) := by
  induction items with
  | nil => exact nil
  | cons v vs ih =>
      obtain ⟨hv, hvs⟩ := List.forall_mem_cons.mp h
      cases vs with
      | nil => exact hv
      | cons => exact hv.append (symbol .comma (ih hvs)) rfl

theorem members_compact {members : List (String × Json)}
    (h : ∀ m ∈ members, Lexes (compact m.2) (toTokens m.2)) :
    Lexes (compactMembers members) (memberTokens members) := by
  induction members with
  | nil => exact nil
  | cons m ms ih =>
      obtain ⟨hv, hms⟩ := List.forall_mem_cons.mp h
      cases ms with
      | nil => exact (quoted m.1).append (symbol .colon hv) rfl
      | cons =>
          exact (quoted m.1).append (symbol .colon (hv.append (symbol .comma (ih hms)) rfl)) rfl

theorem compact {n : Nat} {v : Json} (h : Readable n v) : Lexes (compact v) (toTokens v) := by
  induction h with
  | null => exact word (List.all_eq_true.mp rfl) rfl
  | bool b => cases b <;> exact word (List.all_eq_true.mp rfl) rfl
  | number hword h => exact word hword h
  | string s => exact quoted s
  | array _ ih => exact symbol .openArray ((items_compact ih).append (symbol .closeArray nil) rfl)
  | object _ ih =>
      exact symbol .openObject ((members_compact ih).append (symbol .closeObject nil) rfl)

theorem items_indented {items : List Json} {level : Nat}
    (h : ∀ v ∈ items, Lexes (indented level v) (toTokens v)) :
    Lexes (indentedItems level items) (itemTokens items) := by
  induction items with
  | nil => exact nil
  | cons v vs ih =>
      obtain ⟨hv, hvs⟩ := List.forall_mem_cons.mp h
      cases vs with
      | nil => exact newline level hv
      | cons => exact (newline level hv).append (symbol .comma (ih hvs)) rfl

theorem members_indented {members : List (String × Json)} {level : Nat}
    (h : ∀ m ∈ members, Lexes (indented level m.2) (toTokens m.2)) :
    Lexes (indentedMembers level members) (memberTokens members) := by
  induction members with
  | nil => exact nil
  | cons m ms ih =>
      obtain ⟨hv, hms⟩ := List.forall_mem_cons.mp h
      have hm : Lexes (Json.newline level ++ Json.quoted m.1 ++ [':', ' '] ++ indented level m.2)
          (.string m.1.toList :: .colon :: toTokens m.2) := by
        have hblank : isBlank ' ' := rfl
        have := newline level ((quoted m.1).append (symbol .colon (blank hblank hv)) rfl)
        simpa using this
      cases ms with
      | nil => exact hm
      | cons =>
          have := hm.append (symbol .comma (ih hms)) rfl
          simpa [indentedMembers, memberTokens] using this

theorem indented {n : Nat} {v : Json} (h : Readable n v) (level : Nat) :
    Lexes (indented level v) (toTokens v) := by
  induction h generalizing level with
  | null => exact compact (@Readable.null 0)
  | bool b => exact compact (@Readable.bool 0 b)
  | number hword h => exact compact (@Readable.number 0 _ hword h)
  | string s => exact compact (@Readable.string 0 s)
  | @array n items _ ih =>
      have hitems : Lexes (indentedItems (level + 1) items ++ Json.newline level ++ [']'])
          (itemTokens items ++ [.closeArray]) := by
        rw [List.append_assoc]
        exact (items_indented fun v hv => ih v hv (level + 1)).append
          (newline level (symbol .closeArray nil)) rfl
      cases items with
      | nil => exact symbol .openArray (symbol .closeArray nil)
      | cons => exact symbol .openArray hitems
  | @object n members _ ih =>
      have hmembers : Lexes (indentedMembers (level + 1) members ++ Json.newline level ++ ['}'])
          (memberTokens members ++ [.closeObject]) := by
        rw [List.append_assoc]
        exact (members_indented fun m hm => ih m hm (level + 1)).append
          (newline level (symbol .closeObject nil)) rfl
      cases members with
      | nil => exact symbol .openObject (symbol .closeObject nil)
      | cons => exact symbol .openObject hmembers

end Lexes

theorem Readable.tokens_compact {n : Nat} {v : Json} (h : Readable n v) :
    tokens (compact v) = some (toTokens v) := by
  simpa [tokens] using Lexes.compact h [] endsWord_nil

theorem Readable.tokens_indented {n : Nat} {v : Json} (h : Readable n v) :
    tokens (indented 0 v) = some (toTokens v) := by
  simpa [tokens] using Lexes.indented h 0 [] endsWord_nil

end PlaneFigure.Json
