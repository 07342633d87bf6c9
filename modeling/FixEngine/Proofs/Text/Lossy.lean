import FixEngine.Proofs.Message.Value
import FixEngine.Proofs.Text.Utf8

/-!
# Texts of arbitrary bytes

Any bytes are read as some text, and the text may stand on the wire if and only if
the bytes may.  The delimiter is read exactly where it stands: it never continues a
character, and the machine completes no character of its number from other bytes.
-/

namespace FixEngine.Utf8

/-- The character of the delimiter. -/
def delimiter : Char := Char.ofNat 1

theorem ofNat_eq_delimiter_iff {n : Nat} : delimiter = Char.ofNat n ↔ n = 1 := by
  constructor
  · intro h
    by_cases hvalid : n.isValidChar
    · rw [Char.ofNat, dif_pos hvalid] at h
      exact (congrArg Char.toNat h).symm
    · rw [Char.ofNat, dif_neg hvalid] at h
      exact absurd (congrArg Char.toNat h) (by decide)
  · rintro rfl
    rfl

/-! ### Characters in progress -/

/-- The delimiter does not continue the character in progress, and however it is
completed, its number is above that of the delimiter. -/
structure Pending.IsProper (p : Pending) : Prop where
  low : 0x80 ≤ p.low.toNat
  code : p.code = 0 → p.owed ≠ 0 ∧ 0x80 < p.low.toNat

theorem Pending.IsProper.of_ne {code owed : Nat} (hcode : code ≠ 0) {low high : UInt8}
    (hlow : 0x80 ≤ low.toNat) : IsProper ⟨code, owed, low, high⟩ :=
  ⟨hlow, fun hzero => absurd hzero hcode⟩

/-- A byte completes a piece, which is the delimiter if and only if the byte is, or it
leaves a proper character in progress. -/
structure IsClean (b : UInt8) (result : List Piece × Option Pending) : Prop where
  piece : Piece.char delimiter ∈ result.1 ↔ b = Ascii.soh
  next : ∀ p, result.2 = some p → p.IsProper
  ne_nil : result.1 ≠ [] ∨ result.2.isSome

theorem ne_soh_of_le {b : UInt8} (h : 0x80 ≤ b.toNat) : b ≠ Ascii.soh := by
  rintro rfl
  contradiction

theorem isClean_char {b : UInt8} {n : Nat} (h : n = 1 ↔ b = Ascii.soh) :
    IsClean b ([.char (Char.ofNat n)], none) := by
  refine ⟨?_, by simp, by simp⟩
  rw [List.mem_singleton, Piece.char.injEq, ofNat_eq_delimiter_iff, h]

theorem isClean_invalid {b : UInt8} (hb : 0x80 ≤ b.toNat) : IsClean b ([.invalid], none) :=
  ⟨by simp [ne_soh_of_le hb], by simp, by simp⟩

theorem isClean_pending {b : UInt8} (hb : 0x80 ≤ b.toNat) {p : Pending} (hp : p.IsProper) :
    IsClean b ([], some p) := by
  refine ⟨by simp [ne_soh_of_le hb], ?_, by simp⟩
  rintro p' ⟨⟩
  exact hp

/-- A byte between two characters. -/
theorem isClean_start (b : UInt8) : IsClean b (start b) := by
  have hlt (n : UInt8) : ¬ b < n ↔ n.toNat ≤ b.toNat := by
    rw [UInt8.lt_iff_toNat_lt, Nat.not_lt]
  have hne (n : UInt8) : ¬ b = n ↔ b.toNat ≠ n.toNat := by
    rw [← UInt8.toNat_inj]
  unfold start
  split
  · exact isClean_char (UInt8.toNat_inj (b := Ascii.soh))
  next hascii =>
  have hb : 0x80 ≤ b.toNat := (hlt _).1 hascii
  split
  · exact isClean_invalid hb
  next hlow =>
  have htwo : 0xC2 ≤ b.toNat := (hlt _).1 hlow
  split
  · exact isClean_pending hb (.of_ne (by omega) (by decide))
  next hlow =>
  have hthree : 0xE0 ≤ b.toNat := (hlt _).1 hlow
  split
  · exact isClean_pending hb ⟨by decide, by simp⟩
  next hfirst =>
  have hover : b.toNat ≠ 0xE0 := (hne _).1 hfirst
  split
  · exact isClean_pending hb (.of_ne (by decide) (by decide))
  split
  · exact isClean_pending hb (.of_ne (by omega) (by decide))
  next hlow =>
  have hfour : 0xF0 ≤ b.toNat := (hlt _).1 hlow
  split
  · exact isClean_pending hb ⟨by decide, by simp⟩
  next hfirst =>
  have hover : b.toNat ≠ 0xF0 := (hne _).1 hfirst
  split
  · exact isClean_pending hb (.of_ne (by omega) (by decide))
  split
  · exact isClean_pending hb (.of_ne (by decide) (by decide))
  · exact isClean_invalid hb

/-- A byte after one that began a proper character. -/
theorem isClean_step {state : Option Pending} (hproper : ∀ p, state = some p → p.IsProper)
    (b : UInt8) : IsClean b (step state b) := by
  cases state with
  | none => exact isClean_start b
  | some pending =>
    have hp := hproper pending rfl
    rw [step]
    split
    · next hrange =>
      have hlow : pending.low.toNat ≤ b.toNat := UInt8.le_iff_toNat_le.1 hrange.1
      have hb : 0x80 ≤ b.toNat := Nat.le_trans hp.low hlow
      dsimp only
      split
      · next howed =>
        have hcode : pending.code ≠ 0 := fun hzero => (hp.code hzero).1 howed
        exact isClean_char ⟨fun hone => by omega, fun hsoh => absurd hsoh (ne_soh_of_le hb)⟩
      · have hcode : pending.code * 64 + (b.toNat - 0x80) ≠ 0 := by
          intro hzero
          have hbelow := (hp.code (by omega)).2
          omega
        exact isClean_pending hb (.of_ne hcode (by decide))
    · have hstart := isClean_start b
      exact ⟨by simpa using hstart.piece, hstart.next, by simp⟩

/-! ### Whole texts -/

/-- The delimiter is read where it stands. -/
theorem mem_scan_iff {state : Option Pending} (hproper : ∀ p, state = some p → p.IsProper)
    (bytes : Bytes) : Piece.char delimiter ∈ scan state bytes ↔ Ascii.soh ∈ bytes := by
  induction bytes generalizing state with
  | nil => cases state <;> simp [scan]
  | cons b rest ih =>
    have hclean := isClean_step hproper b
    rw [scan, List.mem_append, hclean.piece, ih hclean.next, List.mem_cons, eq_comm]

/-- Bytes are read as at least one piece. -/
theorem scan_ne_nil {state : Option Pending} (hproper : ∀ p, state = some p → p.IsProper)
    {bytes : Bytes} (h : state.isSome ∨ bytes ≠ []) : scan state bytes ≠ [] := by
  induction bytes generalizing state with
  | nil =>
    cases state with
    | none => simp at h
    | some pending => simp [scan]
  | cons b rest ih =>
    have hclean := isClean_step hproper b
    rw [scan]
    rcases hclean.ne_nil with hpieces | hnext
    · simp [hpieces]
    · simp [ih hclean.next (.inl hnext)]

/-- The written form of a text is read as the text, also with leniency. -/
@[simp]
theorem decodeLossy_encode (text : String) : decodeLossy (encode text) = text := by
  have hshown : Piece.shown ∘ Piece.char = id := rfl
  rw [decodeLossy, encode, scan_flatMap_utf8EncodeChar, List.map_map, hshown, List.map_id,
    String.ofList_toList]

theorem eq_map_of_mapM_char? {pieces : List Piece} {chars : List Char}
    (h : pieces.mapM Piece.char? = some chars) : pieces = chars.map .char := by
  induction pieces generalizing chars with
  | nil =>
    cases h
    rfl
  | cons piece rest ih =>
    rw [List.mapM_cons] at h
    obtain ⟨c, hpiece, h⟩ := Option.bind_eq_some_iff.1 h
    obtain ⟨chars, hrest, h⟩ := Option.bind_eq_some_iff.1 h
    cases h
    cases piece with
    | char c' =>
      cases hpiece
      rw [ih hrest, List.map_cons]
    | invalid => contradiction

/-- Bytes that are a text are read as it, also with leniency. -/
theorem decodeLossy_of_decode? {bytes : Bytes} {text : String} (h : decode? bytes = some text) :
    decodeLossy bytes = text := by
  obtain ⟨chars, hchars, rfl⟩ := Option.map_eq_some_iff.1 h
  have hshown : Piece.shown ∘ Piece.char = id := rfl
  rw [decodeLossy, eq_map_of_mapM_char? hchars, List.map_map, hshown, List.map_id]

theorem soh_mem_encode_iff (text : String) :
    Ascii.soh ∈ encode text ↔ delimiter ∈ text.toList := by
  have hproper : ∀ p : Pending, none = some p → p.IsProper := by simp
  rw [← mem_scan_iff hproper, encode, scan_flatMap_utf8EncodeChar]
  simp

/-- The text that bytes are read as may stand on the wire if the bytes may. -/
theorem isWritable_encode_decodeLossy {bytes : Bytes} (h : Bytes.IsWritable bytes) :
    Bytes.IsWritable (encode (decodeLossy bytes)) := by
  have hproper : ∀ p : Pending, none = some p → p.IsProper := by simp
  constructor
  · rw [ne_eq, encode_eq_nil_iff]
    intro hempty
    have hpieces : ((scan none bytes).map Piece.shown) = [] := by
      simpa [decodeLossy] using congrArg String.toList hempty
    exact scan_ne_nil hproper (.inr h.ne_nil) (List.map_eq_nil_iff.1 hpieces)
  · rw [soh_mem_encode_iff, decodeLossy, String.toList_ofList, List.mem_map]
    rintro ⟨piece, hmem, hshown⟩
    cases piece with
    | char c =>
      have hc : c = delimiter := hshown
      rw [hc, mem_scan_iff hproper] at hmem
      exact h.soh_not_mem hmem
    | invalid => contradiction

end FixEngine.Utf8
