import FixEngine.Proofs.Text.Lossy

/-!
# Bytes that are a text

The reader takes a text from one byte string only, its written form.  Each character in
progress is followed up to the byte that completes it: the ranges of the bytes are those
that the encoder leaves no byte outside of.
-/

namespace FixEngine.Utf8

variable {code owed : Nat} {low high : UInt8} {bytes : Bytes} {c : Char} {pieces : List Piece}

/-! ### The bytes of a character -/

/-- A byte that begins no character. -/
theorem start_invalid {n : Nat} (hn : n < 256) (h : (0x80 ≤ n ∧ n < 0xC2) ∨ 0xF5 ≤ n) :
    start (UInt8.ofNat n) = ([.invalid], none) := by
  have htoNat : (UInt8.ofNat n).toNat = n := UInt8.toNat_ofNat_of_lt' hn
  simp only [start, UInt8.lt_iff_toNat_lt, ← UInt8.toNat_inj, htoNat, UInt8.reduceToNat]
  rcases h with ⟨hlow, hhigh⟩ | hlow
  · rw [if_neg (by omega), if_pos hhigh]
  · rw [if_neg (by omega), if_neg (by omega), if_neg (by omega), if_neg (by omega),
      if_neg (by omega), if_neg (by omega), if_neg (by omega), if_neg (by omega),
      if_neg (by omega)]

/-- A character in progress is completed by a byte of its range. -/
theorem last_of_scan (h : scan (some ⟨code, 0, low, high⟩) bytes = .char c :: pieces) :
    ∃ b rest, bytes = b :: rest ∧ low.toNat ≤ b.toNat ∧ b.toNat ≤ high.toNat ∧
      c = Char.ofNat (code * 64 + (b.toNat - 0x80)) ∧ scan none rest = pieces := by
  cases bytes with
  | nil => simp [scan] at h
  | cons b rest =>
    rw [scan, step] at h
    split at h
    · next hrange =>
      obtain ⟨hc, hrest⟩ := List.cons.inj h
      exact ⟨b, rest, rfl, UInt8.le_iff_toNat_le.1 hrange.1, UInt8.le_iff_toNat_le.1 hrange.2,
        (Piece.char.inj hc).symm, hrest⟩
    · cases h

/-- A character in progress to which more bytes are owed is continued by a byte of its
range. -/
theorem more_of_scan (h : scan (some ⟨code, owed + 1, low, high⟩) bytes = .char c :: pieces) :
    ∃ b rest, bytes = b :: rest ∧ low.toNat ≤ b.toNat ∧ b.toNat ≤ high.toNat ∧
      scan (some ⟨code * 64 + (b.toNat - 0x80), owed, 0x80, 0xBF⟩) rest = .char c :: pieces := by
  cases bytes with
  | nil => simp [scan] at h
  | cons b rest =>
    rw [scan, step] at h
    split at h
    · next hrange =>
      exact ⟨b, rest, rfl, UInt8.le_iff_toNat_le.1 hrange.1, UInt8.le_iff_toNat_le.1 hrange.2, h⟩
    · cases h

/-- The written form of the character with a number. -/
theorem utf8EncodeChar_ofNat {n : Nat} (h : n.isValidChar) :
    String.utf8EncodeChar (Char.ofNat n) =
      if n ≤ 0x7F then [UInt8.ofNat n]
      else if n ≤ 0x7FF then [UInt8.ofNat (n / 64 + 0xC0), UInt8.ofNat (n % 64 + 0x80)]
      else if n ≤ 0xFFFF then
        [UInt8.ofNat (n / 4096 + 0xE0), UInt8.ofNat (n / 64 % 64 + 0x80),
          UInt8.ofNat (n % 64 + 0x80)]
      else
        [UInt8.ofNat (n / 262144 + 0xF0), UInt8.ofNat (n / 4096 % 64 + 0x80),
          UInt8.ofNat (n / 64 % 64 + 0x80), UInt8.ofNat (n % 64 + 0x80)] := by
  have hlt : n < 0x110000 := by
    rcases h with h | h <;> omega
  have hval : (Char.ofNat n).val.toNat = n := by
    rw [Char.ofNat, dif_pos h]
    rfl
  simp only [String.utf8EncodeChar, hval]
  split
  · rfl
  split
  · rw [Nat.mod_eq_of_lt (by omega)]
  split
  · rw [Nat.mod_eq_of_lt (show n / 4096 < 16 by omega)]
  · rw [Nat.mod_eq_of_lt (show n / 262144 < 8 by omega)]

/-! ### Characters that were read -/

/-- The bytes at the front are the written form of the character, and the pieces are those
of what follows them. -/
def BeginsWith (bytes : Bytes) (c : Char) (pieces : List Piece) : Prop :=
  ∃ rest, bytes = String.utf8EncodeChar c ++ rest ∧ scan none rest = pieces

theorem beginsWith_two {n : Nat} (hlow : 0xC2 ≤ n) (hhigh : n < 0xE0)
    (h : scan (some ⟨n - 0xC0, 0, 0x80, 0xBF⟩) bytes = .char c :: pieces) :
    BeginsWith (UInt8.ofNat n :: bytes) c pieces := by
  obtain ⟨b₁, rest, rfl, hlow₁, hhigh₁, hc, hrest⟩ := last_of_scan h
  simp only [UInt8.reduceToNat] at hlow₁ hhigh₁
  generalize hv : (n - 0xC0) * 64 + (b₁.toNat - 0x80) = v at hc
  have hfirst : v / 64 + 0xC0 = n := by omega
  have hlast : v % 64 + 0x80 = b₁.toNat := by omega
  have hvalid : v.isValidChar := .inl (by omega)
  refine ⟨rest, ?_, hrest⟩
  rw [hc, utf8EncodeChar_ofNat hvalid, if_neg (by omega), if_pos (by omega), hfirst, hlast,
    UInt8.ofNat_toNat]
  rfl

theorem beginsWith_three {n : Nat} (hlow : 0xE0 ≤ n) (hhigh : n < 0xF0)
    (h : scan (some ⟨n - 0xE0, 1, if n = 0xE0 then 0xA0 else 0x80,
      if n = 0xED then 0x9F else 0xBF⟩) bytes = .char c :: pieces) :
    BeginsWith (UInt8.ofNat n :: bytes) c pieces := by
  obtain ⟨b₁, rest, rfl, hlow₁, hhigh₁, h⟩ := more_of_scan h
  obtain ⟨b₂, rest, rfl, hlow₂, hhigh₂, hc, hrest⟩ := last_of_scan h
  simp only [apply_ite UInt8.toNat, UInt8.reduceToNat] at hlow₁ hhigh₁ hlow₂ hhigh₂
  have hover : 0x80 ≤ b₁.toNat ∧ (n = 0xE0 → 0xA0 ≤ b₁.toNat) := by split at hlow₁ <;> omega
  have hbelow : b₁.toNat ≤ 0xBF ∧ (n = 0xED → b₁.toNat ≤ 0x9F) := by split at hhigh₁ <;> omega
  generalize hv : ((n - 0xE0) * 64 + (b₁.toNat - 0x80)) * 64 + (b₂.toNat - 0x80) = v at hc
  have hfirst : v / 4096 + 0xE0 = n := by omega
  have hsecond : v / 64 % 64 + 0x80 = b₁.toNat := by omega
  have hlast : v % 64 + 0x80 = b₂.toNat := by omega
  have hvalid : v.isValidChar := show v < 0xD800 ∨ (0xDFFF < v ∧ v < 0x110000) by omega
  refine ⟨rest, ?_, hrest⟩
  rw [hc, utf8EncodeChar_ofNat hvalid, if_neg (by omega), if_neg (by omega), if_pos (by omega),
    hfirst, hsecond, hlast, UInt8.ofNat_toNat, UInt8.ofNat_toNat]
  rfl

theorem beginsWith_four {n : Nat} (hlow : 0xF0 ≤ n) (hhigh : n < 0xF5)
    (h : scan (some ⟨n - 0xF0, 2, if n = 0xF0 then 0x90 else 0x80,
      if n = 0xF4 then 0x8F else 0xBF⟩) bytes = .char c :: pieces) :
    BeginsWith (UInt8.ofNat n :: bytes) c pieces := by
  obtain ⟨b₁, rest, rfl, hlow₁, hhigh₁, h⟩ := more_of_scan h
  obtain ⟨b₂, rest, rfl, hlow₂, hhigh₂, h⟩ := more_of_scan h
  obtain ⟨b₃, rest, rfl, hlow₃, hhigh₃, hc, hrest⟩ := last_of_scan h
  simp only [apply_ite UInt8.toNat, UInt8.reduceToNat] at hlow₁ hhigh₁ hlow₂ hhigh₂ hlow₃ hhigh₃
  have hover : 0x80 ≤ b₁.toNat ∧ (n = 0xF0 → 0x90 ≤ b₁.toNat) := by split at hlow₁ <;> omega
  have hbelow : b₁.toNat ≤ 0xBF ∧ (n = 0xF4 → b₁.toNat ≤ 0x8F) := by split at hhigh₁ <;> omega
  generalize hv : (((n - 0xF0) * 64 + (b₁.toNat - 0x80)) * 64 + (b₂.toNat - 0x80)) * 64
    + (b₃.toNat - 0x80) = v at hc
  have hfirst : v / 262144 + 0xF0 = n := by omega
  have hsecond : v / 4096 % 64 + 0x80 = b₁.toNat := by omega
  have hthird : v / 64 % 64 + 0x80 = b₂.toNat := by omega
  have hlast : v % 64 + 0x80 = b₃.toNat := by omega
  have hvalid : v.isValidChar := .inr (by omega)
  refine ⟨rest, ?_, hrest⟩
  rw [hc, utf8EncodeChar_ofNat hvalid, if_neg (by omega), if_neg (by omega), if_neg (by omega),
    hfirst, hsecond, hthird, hlast, UInt8.ofNat_toNat, UInt8.ofNat_toNat, UInt8.ofNat_toNat]
  rfl

theorem beginsWith_of_scan (h : scan none bytes = .char c :: pieces) :
    BeginsWith bytes c pieces := by
  cases bytes with
  | nil => cases h
  | cons b rest =>
    have hb : b.toNat < 256 := b.toNat_lt
    have hofNat : b = UInt8.ofNat b.toNat := UInt8.ofNat_toNat.symm
    rw [scan, step] at h
    rw [hofNat] at h ⊢
    generalize b.toNat = n at hb h
    by_cases hone : n < 0x80
    · rw [start_of_lt hone] at h
      obtain ⟨hc, hrest⟩ := List.cons.inj h
      refine ⟨rest, ?_, hrest⟩
      rw [← Piece.char.inj hc, utf8EncodeChar_ofNat (.inl (by omega)), if_pos (by omega)]
      rfl
    by_cases hinvalid : n < 0xC2 ∨ 0xF5 ≤ n
    · rw [start_invalid hb (by omega)] at h
      cases h
    by_cases htwo : n < 0xE0
    · rw [start_two (by omega) htwo] at h
      exact beginsWith_two (by omega) htwo h
    by_cases hthree : n < 0xF0
    · rw [start_three (by omega) hthree] at h
      exact beginsWith_three (by omega) hthree h
    · rw [start_four (by omega) (by omega)] at h
      exact beginsWith_four (by omega) (by omega) h

/-! ### Texts that were read -/

/-- The written form of some characters. -/
def bytesOf (text : List Char) : Bytes := text.flatMap String.utf8EncodeChar

@[simp]
theorem bytesOf_cons (c : Char) (text : List Char) :
    bytesOf (c :: text) = String.utf8EncodeChar c ++ bytesOf text :=
  List.flatMap_cons

@[simp]
theorem bytesOf_append (left right : List Char) :
    bytesOf (left ++ right) = bytesOf left ++ bytesOf right :=
  List.flatMap_append

/-- Bytes are a text if and only if they are its written form. -/
theorem chars?_eq_some_iff {text : List Char} :
    chars? bytes = some text ↔ bytes = bytesOf text := by
  refine ⟨fun h => ?_, ?_⟩
  · have hscan : scan none bytes = text.map .char := eq_map_of_mapM_char? h
    clear h
    induction text generalizing bytes with
    | nil =>
      cases bytes with
      | nil => rfl
      | cons b rest => exact absurd hscan (scan_ne_nil (by simp) (.inr (List.cons_ne_nil b rest)))
    | cons c text ih =>
      obtain ⟨rest, rfl, hrest⟩ := beginsWith_of_scan hscan
      rw [ih hrest, bytesOf_cons]
  · rintro rfl
    exact chars?_flatMap_utf8EncodeChar text

theorem bytesOf_inj {left right : List Char} : bytesOf left = bytesOf right ↔ left = right := by
  refine ⟨fun h => ?_, congrArg bytesOf⟩
  have hleft : chars? (bytesOf left) = some left := chars?_eq_some_iff.2 rfl
  rw [h, chars?_eq_some_iff.2 rfl] at hleft
  exact (Option.some.inj hleft).symm

/-! ### ASCII characters -/

theorem utf8EncodeChar_of_lt (h : c.toNat < 0x80) :
    String.utf8EncodeChar c = [UInt8.ofNat c.toNat] := by
  have hvalid : c.toNat.isValidChar := .inl (by omega)
  have hform := utf8EncodeChar_ofNat hvalid
  rwa [Char.ofNat_toNat, if_pos (by omega)] at hform

/-- The bytes of other characters are no ASCII. -/
theorem le_of_mem_utf8EncodeChar (h : 0x80 ≤ c.toNat) {b : UInt8}
    (hb : b ∈ String.utf8EncodeChar c) : 0x80 ≤ b.toNat := by
  have hvalid : c.toNat.isValidChar := c.valid
  have hlt : c.toNat < 0x110000 := by
    rcases hvalid with h | h <;> omega
  have hform := utf8EncodeChar_ofNat hvalid
  rw [Char.ofNat_toNat] at hform
  generalize c.toNat = n at h hlt hform
  rw [hform] at hb
  have hbyte {m : Nat} (hm : b = UInt8.ofNat m) (hrange : 0x80 ≤ m ∧ m < 256) : 0x80 ≤ b.toNat := by
    rw [hm, UInt8.toNat_ofNat_of_lt' hrange.2]
    exact hrange.1
  split at hb
  · omega
  split at hb
  · simp only [List.mem_cons, List.not_mem_nil, or_false] at hb
    rcases hb with hb | hb <;> exact hbyte hb (by omega)
  split at hb
  · simp only [List.mem_cons, List.not_mem_nil, or_false] at hb
    rcases hb with hb | hb | hb <;> exact hbyte hb (by omega)
  · simp only [List.mem_cons, List.not_mem_nil, or_false] at hb
    rcases hb with hb | hb | hb | hb <;> exact hbyte hb (by omega)

/-- An ASCII byte stands where its character stands. -/
theorem ofNat_mem_of_mem_bytesOf {text : List Char} {b : UInt8} (hb : b.toNat < 0x80)
    (h : b ∈ bytesOf text) : Char.ofNat b.toNat ∈ text := by
  obtain ⟨c, hc, hmem⟩ := List.mem_flatMap.1 h
  by_cases hascii : c.toNat < 0x80
  · rw [utf8EncodeChar_of_lt hascii, List.mem_singleton] at hmem
    rw [hmem, UInt8.toNat_ofNat_of_lt' (show c.toNat < 256 by omega), Char.ofNat_toNat]
    exact hc
  · have hle := le_of_mem_utf8EncodeChar (Nat.not_lt.1 hascii) hmem
    omega

theorem length_bytesOf {text : List Char} (h : ∀ c ∈ text, c.toNat < 0x80) :
    (bytesOf text).length = text.length := by
  induction text with
  | nil => rfl
  | cons c text ih =>
    obtain ⟨hc, htext⟩ := List.forall_mem_cons.1 h
    rw [bytesOf_cons, utf8EncodeChar_of_lt hc, List.length_append, ih htext, List.length_singleton,
      List.length_cons, Nat.add_comm]

end FixEngine.Utf8
