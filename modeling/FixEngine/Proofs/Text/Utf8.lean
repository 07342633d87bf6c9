import FixEngine.Text.Utf8

/-!
# Reading back UTF-8

The written form of a text is valid UTF-8 and reads back as the text.  The first
byte of a character fixes how many bytes follow and in which range the second
one lies; the encoder never leaves that range, because a character is no
surrogate and is written in as few bytes as possible.
-/

namespace FixEngine.Utf8

/-! ### First bytes -/

theorem start_of_lt {n : Nat} (h : n < 0x80) :
    start (UInt8.ofNat n) = ([.char (Char.ofNat n)], none) := by
  have hn : (UInt8.ofNat n).toNat = n := UInt8.toNat_ofNat_of_lt' (show n < 256 by omega)
  simp only [start, UInt8.lt_iff_toNat_lt, hn, UInt8.reduceToNat]
  rw [if_pos h]

theorem start_two {n : Nat} (hlow : 0xC2 ≤ n) (hhigh : n < 0xE0) :
    start (UInt8.ofNat n) = ([], some ⟨n - 0xC0, 0, 0x80, 0xBF⟩) := by
  have hn : (UInt8.ofNat n).toNat = n := UInt8.toNat_ofNat_of_lt' (show n < 256 by omega)
  simp only [start, UInt8.lt_iff_toNat_lt, hn, UInt8.reduceToNat]
  rw [if_neg (by omega), if_neg (by omega), if_pos hhigh]

/-- The first of three bytes.  Overlong forms and surrogates are excluded by the
range of the second byte. -/
theorem start_three {n : Nat} (hlow : 0xE0 ≤ n) (hhigh : n < 0xF0) :
    start (UInt8.ofNat n) =
      ([], some ⟨n - 0xE0, 1, if n = 0xE0 then 0xA0 else 0x80,
        if n = 0xED then 0x9F else 0xBF⟩) := by
  have hn : (UInt8.ofNat n).toNat = n := UInt8.toNat_ofNat_of_lt' (show n < 256 by omega)
  simp only [start, UInt8.lt_iff_toNat_lt, ← UInt8.toNat_inj, hn, UInt8.reduceToNat]
  rw [if_neg (by omega), if_neg (by omega), if_neg (by omega)]
  by_cases h0 : n = 0xE0
  · subst n
    rfl
  by_cases hD : n = 0xED
  · subst n
    rfl
  simp [h0, hD, hhigh]

/-- The first of four bytes.  Overlong forms and codes beyond the last character
are excluded by the range of the second byte. -/
theorem start_four {n : Nat} (hlow : 0xF0 ≤ n) (hhigh : n < 0xF5) :
    start (UInt8.ofNat n) =
      ([], some ⟨n - 0xF0, 2, if n = 0xF0 then 0x90 else 0x80,
        if n = 0xF4 then 0x8F else 0xBF⟩) := by
  have hn : (UInt8.ofNat n).toNat = n := UInt8.toNat_ofNat_of_lt' (show n < 256 by omega)
  simp only [start, UInt8.lt_iff_toNat_lt, ← UInt8.toNat_inj, hn, UInt8.reduceToNat]
  rw [if_neg (by omega), if_neg (by omega), if_neg (by omega), if_neg (by omega),
    if_neg (by omega), if_neg (by omega)]
  by_cases h0 : n = 0xF0
  · subst n
    rfl
  by_cases h4 : n = 0xF4
  · subst n
    rfl
  simp [h0, h4, show n < 244 by omega]

/-! ### Further bytes -/

/-- The last byte of a character. -/
theorem step_last {code n : Nat} {low high : UInt8} (hn : n < 256)
    (hlow : low.toNat ≤ n) (hhigh : n ≤ high.toNat) :
    step (some ⟨code, 0, low, high⟩) (UInt8.ofNat n) =
      ([.char (Char.ofNat (code * 64 + (n - 0x80)))], none) := by
  have htoNat : (UInt8.ofNat n).toNat = n := UInt8.toNat_ofNat_of_lt' hn
  simp only [step, UInt8.le_iff_toNat_le, htoNat]
  rw [if_pos ⟨hlow, hhigh⟩]

/-- A byte after which more are owed. -/
theorem step_more {code owed n : Nat} {low high : UInt8} (hn : n < 256)
    (hlow : low.toNat ≤ n) (hhigh : n ≤ high.toNat) :
    step (some ⟨code, owed + 1, low, high⟩) (UInt8.ofNat n) =
      ([], some ⟨code * 64 + (n - 0x80), owed, 0x80, 0xBF⟩) := by
  have htoNat : (UInt8.ofNat n).toNat = n := UInt8.toNat_ofNat_of_lt' hn
  simp only [step, UInt8.le_iff_toNat_le, htoNat]
  rw [if_pos ⟨hlow, hhigh⟩]

/-! ### Whole characters -/

/-- A written character reads back, whatever follows it. -/
theorem scan_utf8EncodeChar (c : Char) (rest : Bytes) :
    scan none (String.utf8EncodeChar c ++ rest) = .char c :: scan none rest := by
  have hvalid : c.toNat < 0xD800 ∨ (0xDFFF < c.toNat ∧ c.toNat < 0x110000) := c.valid
  have hchar : Char.ofNat c.toNat = c := Char.ofNat_toNat c
  have hval : c.val.toNat = c.toNat := rfl
  generalize hv : c.toNat = v at hvalid hchar hval
  simp only [String.utf8EncodeChar, hval]
  split
  · next hone =>
    simp only [List.cons_append, List.nil_append, scan, step]
    rw [start_of_lt (by omega), hchar]
    rfl
  split
  · next hone htwo =>
    simp only [List.cons_append, List.nil_append, scan, step.eq_1]
    rw [start_two (by omega) (by omega)]
    rw [step_last (by omega) (by simp) (by simp; omega)]
    rw [show (v / 64 % 32 + 192 - 192) * 64 + (v % 64 + 128 - 128) = v by omega, hchar]
    rfl
  split
  · next hone htwo hthree =>
    simp only [List.cons_append, List.nil_append, scan, step.eq_1]
    rw [start_three (by omega) (by omega)]
    rw [step_more (by omega) (by split <;> simp; omega) (by split <;> simp <;> omega)]
    rw [step_last (by omega) (by simp) (by simp; omega)]
    rw [show ((v / 4096 % 16 + 224 - 224) * 64 + (v / 64 % 64 + 128 - 128)) * 64
      + (v % 64 + 128 - 128) = v by omega, hchar]
    rfl
  · next hone htwo hthree =>
    simp only [List.cons_append, List.nil_append, scan, step.eq_1]
    rw [start_four (by omega) (by omega)]
    rw [step_more (by omega) (by split <;> simp; omega) (by split <;> simp <;> omega)]
    rw [step_more (by omega) (by simp) (by simp; omega)]
    rw [step_last (by omega) (by simp) (by simp; omega)]
    rw [show (((v / 262144 % 8 + 240 - 240) * 64 + (v / 4096 % 64 + 128 - 128)) * 64
      + (v / 64 % 64 + 128 - 128)) * 64 + (v % 64 + 128 - 128) = v by omega, hchar]
    rfl

/-! ### Whole texts -/

theorem scan_flatMap_utf8EncodeChar (chars : List Char) :
    scan none (chars.flatMap String.utf8EncodeChar) = chars.map .char := by
  induction chars with
  | nil => rfl
  | cons c chars ih => rw [List.flatMap_cons, scan_utf8EncodeChar, ih, List.map_cons]

theorem mapM_char?_map (chars : List Char) :
    (chars.map Piece.char).mapM Piece.char? = some chars := by
  induction chars with
  | nil => rfl
  | cons c chars ih => simp [List.mapM_cons, Piece.char?, ih]

theorem chars?_flatMap_utf8EncodeChar (chars : List Char) :
    chars? (chars.flatMap String.utf8EncodeChar) = some chars := by
  rw [chars?, scan_flatMap_utf8EncodeChar, mapM_char?_map]

/-- The written form of a text reads back as the text. -/
@[simp]
theorem decode?_encode (text : String) : decode? (encode text) = some text := by
  rw [decode?, encode, chars?_flatMap_utf8EncodeChar]
  simp

/-- Bytes below 128 are the characters with their numbers. -/
theorem chars?_of_ascii {bytes : Bytes} (h : ∀ b ∈ bytes, b.toNat < 0x80) :
    chars? bytes = some (bytes.map fun b => Char.ofNat b.toNat) := by
  have hscan : scan none bytes = (bytes.map fun b => Char.ofNat b.toNat).map .char := by
    induction bytes with
    | nil => rfl
    | cons b rest ih =>
      have hb : b.toNat < 0x80 := h b List.mem_cons_self
      have hstart := start_of_lt hb
      rw [UInt8.ofNat_toNat] at hstart
      rw [scan, step, hstart, ih fun b' hb' => h b' (List.mem_cons_of_mem b hb')]
      rfl
  rw [chars?, hscan, mapM_char?_map]

/-- Bytes below 128 are a text. -/
theorem decode?_of_ascii {bytes : Bytes} (h : ∀ b ∈ bytes, b.toNat < 0x80) :
    decode? bytes = some (String.ofList (bytes.map fun b => Char.ofNat b.toNat)) := by
  rw [decode?, chars?_of_ascii h, Option.map_some]

end FixEngine.Utf8
