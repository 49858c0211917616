import PlaneFigure.Text.Bytes

/-!
A text is what its bytes are decoded to. So bytes encode one text at most, and nothing is replaced
where they encode one.
-/

namespace PlaneFigure.Bytes

variable {low high n code m : Nat} {rest b : Bytes} {s : String}

/-! ### Bytes of characters -/

theorem toNat_ofNat (h : n < 256) : (UInt8.ofNat n).toNat = n := by
  rw [UInt8.toNat_ofNat']
  exact Nat.mod_eq_of_lt h

/-- A byte that a character goes on with, but not ends. -/
theorem decode_more (hlow : low ≤ m % 64 + 128) (hhigh : m % 64 + 128 ≤ high) :
    decode (some ⟨low, high, n + 1, code⟩) (UInt8.ofNat (m % 64 + 128) :: rest) =
      decode (some ⟨0x80, 0xBF, n, code * 64 + m % 64⟩) rest := by
  have hbyte : (UInt8.ofNat (m % 64 + 128)).toNat = m % 64 + 128 := toNat_ofNat (by omega)
  rw [decode, Begun.next, hbyte, if_pos ⟨hlow, hhigh⟩, Nat.add_sub_cancel]
  rfl

/-- The byte that a character ends with. -/
theorem decode_end (hlow : low ≤ m % 64 + 128) (hhigh : m % 64 + 128 ≤ high) :
    decode (some ⟨low, high, 0, code⟩) (UInt8.ofNat (m % 64 + 128) :: rest) =
      Char.ofNat (code * 64 + m % 64) :: decode none rest := by
  have hbyte : (UInt8.ofNat (m % 64 + 128)).toNat = m % 64 + 128 := toNat_ofNat (by omega)
  rw [decode, Begun.next, hbyte, if_pos ⟨hlow, hhigh⟩, Nat.add_sub_cancel]
  rfl

theorem decode_first {begun : Begun} (hm : m < 256) (hbegun : Begun.ofFirst? m = some begun) :
    decode none (UInt8.ofNat m :: rest) = decode (some begun) rest := by
  have hlarge : ¬ m < 0x80 := by
    intro hsmall
    rw [Begun.ofFirst?, if_pos (by omega)] at hbegun
    cases hbegun
  rw [decode, first, toNat_ofNat hm, if_neg hlarge, hbegun]
  rfl

/-! ### First bytes of characters -/

section First

variable {v : Nat}

theorem ofFirst?_two (hmin : 0x7F < v) (hmax : v ≤ 0x7FF) :
    Begun.ofFirst? (v / 64 % 32 + 192) = some ⟨0x80, 0xBF, 0, v / 64 % 32⟩ := by
  rw [Begun.ofFirst?, if_neg (by omega), if_pos (by omega), Nat.add_sub_cancel]

theorem ofFirst?_three (hmax : v ≤ 0xFFFF) :
    Begun.ofFirst? (v / 4096 % 16 + 224) = some ⟨if v / 4096 = 0 then 0xA0 else 0x80,
      if v / 4096 = 13 then 0x9F else 0xBF, 1, v / 4096 % 16⟩ := by
  have hlow : v / 4096 % 16 + 224 = 0xE0 ↔ v / 4096 = 0 := by omega
  have hhigh : v / 4096 % 16 + 224 = 0xED ↔ v / 4096 = 13 := by omega
  rw [Begun.ofFirst?, if_neg (by omega), if_neg (by omega), if_pos (by omega), Nat.add_sub_cancel]
  simp only [hlow, hhigh]

theorem ofFirst?_four (hmax : v < 0x110000) :
    Begun.ofFirst? (v / 262144 % 8 + 240) = some ⟨if v / 262144 = 0 then 0x90 else 0x80,
      if v / 262144 = 4 then 0x8F else 0xBF, 2, v / 262144 % 8⟩ := by
  have hlow : v / 262144 % 8 + 240 = 0xF0 ↔ v / 262144 = 0 := by omega
  have hhigh : v / 262144 % 8 + 240 = 0xF4 ↔ v / 262144 = 4 := by omega
  rw [Begun.ofFirst?, if_neg (by omega), if_neg (by omega), if_neg (by omega), if_pos (by omega),
    Nat.add_sub_cancel]
  simp only [hlow, hhigh]

end First

/-! ### Texts -/

/-- A character is what its bytes are decoded to. -/
theorem decode_utf8EncodeChar (c : Char) (rest : Bytes) :
    decode none (String.utf8EncodeChar c ++ rest) = c :: decode none rest := by
  have hvalid : c.val.toNat < 0xD800 ∨ 0xDFFF < c.val.toNat ∧ c.val.toNat < 0x110000 := c.valid
  have hchar : ∀ n, n = c.val.toNat → Char.ofNat n = c := by
    rintro n rfl
    exact Char.ofNat_toNat c
  rw [String.utf8EncodeChar]
  generalize c.val.toNat = v at hvalid hchar
  -- one case for each number of bytes
  split
  next hone =>
    rw [List.singleton_append, decode, first, toNat_ofNat (by omega), if_pos (by omega), hchar v rfl]
    rfl
  split
  next hone htwo =>
    rw [List.cons_append, decode_first (by omega) (ofFirst?_two (by omega) htwo),
      List.singleton_append, decode_end (by omega) (by omega), hchar _ (by omega)]
  split
  next hthree =>
    rw [List.cons_append, decode_first (by omega) (ofFirst?_three hthree), List.cons_append,
      decode_more (by split <;> omega) (by split <;> omega), List.singleton_append,
      decode_end (by omega) (by omega), hchar _ (by omega)]
  next hfour =>
    rw [List.cons_append, decode_first (by omega) (ofFirst?_four (by omega)), List.cons_append,
      decode_more (by split <;> omega) (by split <;> omega), List.cons_append,
      decode_more (by omega) (by omega), List.singleton_append,
      decode_end (by omega) (by omega), hchar _ (by omega)]

/-- A text is what its bytes are decoded to. -/
@[simp] theorem lossy_ofString (s : String) : lossy (ofString s) = s := by
  have hdecode : ∀ cs : List Char, decode none (cs.flatMap String.utf8EncodeChar) = cs := by
    intro cs
    induction cs with
    | nil => rfl
    | cons c cs ih => rw [List.flatMap_cons, decode_utf8EncodeChar, ih]
  rw [lossy, ofString, hdecode, String.ofList_toList]

/-- A character that is broken off is replaced as a whole, and bytes that begin none one by one. -/
example : lossy [0x61, 0xE2, 0x82, 0x28, 0xED, 0xA0, 0x80, 0xF0] =
    "a\uFFFD(\uFFFD\uFFFD\uFFFD\uFFFD" := by
  decide +kernel

/-- Bytes encode the text whose bytes they are. -/
theorem text?_eq_some : text? b = some s ↔ b = ofString s := by
  rw [text?]
  split
  next h =>
    rw [Option.some.injEq]
    constructor
    · rintro rfl
      exact h.symm
    · rintro rfl
      exact lossy_ofString s
  next h =>
    refine iff_of_false nofun ?_
    rintro rfl
    exact h (by rw [lossy_ofString])

/-- Nothing is replaced just where bytes encode a text. -/
theorem ofString_lossy : ofString (lossy b) = b ↔ ∃ s, b = ofString s := by
  constructor
  · exact fun h => ⟨_, h.symm⟩
  · rintro ⟨s, rfl⟩
    rw [lossy_ofString]

end PlaneFigure.Bytes
