import FixEngine.Proofs.Message.Value
import FixEngine.Wire.Encoding

/-!
# Reading back records

A record whose tag is a positive number and whose value may stand on the wire is
read back from its written form, and a run of such records is cut where they
meet.
-/

namespace FixEngine

/-- The numeral of a positive tag is read as the tag. -/
theorem Tag.parse?_ofNat {tag : Tag} (h : tag ≠ 0) :
    Tag.parse? (Numeral.ofNat tag.toNat) = some tag := by
  have hlt : tag.toNat < 4294967296 := UInt32.toNat_lt tag
  have hpos : 0 < tag.toNat := Nat.pos_of_ne_zero fun h0 => h (UInt32.toNat_inj.1 h0)
  have hlength : (Numeral.ofNat tag.toNat).length ≤ 10 :=
    (Numeral.length_ofNat_le_iff (by omega)).2 (by omega)
  have hlengthPos := Numeral.length_ofNat_pos tag.toNat
  simp only [Tag.parse?, Numeral.value_ofNat, Numeral.allDigits_ofNat]
  rw [if_pos ⟨hlengthPos, hlength, trivial, hpos, hlt⟩, UInt32.ofNat_toNat]

/-- A tag that is read is positive. -/
theorem Tag.ne_zero_of_parse? {bytes : Bytes} {tag : Tag} (h : Tag.parse? bytes = some tag) :
    tag ≠ 0 := by
  rw [Tag.parse?] at h
  split at h
  · next hnumber =>
    obtain ⟨-, -, -, hpos, hlt⟩ := hnumber
    cases h
    intro hzero
    have hvalue := UInt32.toNat_ofNat_of_lt' hlt
    rw [hzero] at hvalue
    exact absurd hvalue (Nat.ne_of_lt hpos)
  · contradiction

namespace Record

/-- The record may stand on the wire. -/
structure IsWritable (r : Record) : Prop where
  tag_ne_zero : r.tag ≠ 0
  value : Bytes.IsWritable r.value

/-- The written form without the delimiter at its end. -/
def head (r : Record) : Bytes :=
  Numeral.ofNat r.tag.toNat ++ Ascii.equals :: r.value

theorem toBytes_eq (r : Record) : r.toBytes = r.head ++ [Ascii.soh] := by
  simp [toBytes, head]

@[simp]
theorem trimmed_append_soh (bytes : Bytes) : trimmed (bytes ++ [Ascii.soh]) = bytes := by
  simp [trimmed]

@[simp]
theorem trimmed_toBytes (r : Record) : trimmed r.toBytes = r.head := by
  rw [toBytes_eq, trimmed_append_soh]

/-- A record adds all bytes of its written form to a checksum. -/
@[simp]
theorem addTo_toBytes (sum : UInt8) (r : Record) :
    addTo sum r.toBytes = Checksum.extend sum r.toBytes := by
  rw [addTo, trimmed_toBytes, toBytes_eq]

theorem takeWhile_head (r : Record) :
    r.head.takeWhile (· ≠ Ascii.equals) = Numeral.ofNat r.tag.toNat := by
  have hdigits : ∀ b ∈ Numeral.ofNat r.tag.toNat, decide (b ≠ Ascii.equals) = true := by
    intro b hb
    rw [decide_eq_true_eq]
    rintro rfl
    exact Numeral.not_mem_of_allDigits (Numeral.allDigits_ofNat r.tag.toNat) rfl hb
  rw [head, List.takeWhile_append_of_pos hdigits]
  simp

theorem dropWhile_head (r : Record) :
    r.head.dropWhile (· ≠ Ascii.equals) = Ascii.equals :: r.value := by
  have hdigits : ∀ b ∈ Numeral.ofNat r.tag.toNat, decide (b ≠ Ascii.equals) = true := by
    intro b hb
    rw [decide_eq_true_eq]
    rintro rfl
    exact Numeral.not_mem_of_allDigits (Numeral.allDigits_ofNat r.tag.toNat) rfl hb
  rw [head, List.dropWhile_append_of_pos hdigits]
  simp

/-- A record that may stand on the wire is read back from its written form. -/
theorem parse_toBytes {r : Record} (h : r.IsWritable) : parse r.toBytes = .ok r := by
  simp only [parse, trimmed_toBytes, takeWhile_head, dropWhile_head,
    Tag.parse?_ofNat h.tag_ne_zero]
  rw [if_neg (by simpa using h.value.ne_nil)]

/-! ### Cutting -/

theorem soh_not_mem_head {r : Record} (h : Ascii.soh ∉ r.value) : Ascii.soh ∉ r.head := by
  have htag := (Numeral.isWritable_ofNat r.tag.toNat).soh_not_mem
  have hvalue : Bytes.IsWritable (Ascii.equals :: r.value) := .cons (by decide) h
  simp only [head, List.mem_append, htag, hvalue.soh_not_mem, or_self, not_false_eq_true]

/-- A piece ends at the first delimiter. -/
theorem cut_append_soh {line : Bytes} (h : Ascii.soh ∉ line) (rest : Bytes) :
    cut (line ++ Ascii.soh :: rest) = (line ++ [Ascii.soh]) :: cut rest := by
  induction line with
  | nil => simp [cut]
  | cons b line ih =>
    obtain ⟨hb, hline⟩ : Ascii.soh ≠ b ∧ Ascii.soh ∉ line := by
      simpa only [List.mem_cons, not_or] using h
    rw [List.cons_append, cut, if_neg (Ne.symm hb), ih hline]
    rfl

/-- Records without the delimiter in their values are cut where they meet. -/
theorem cut_render_of_soh_not_mem {records : List Record}
    (h : ∀ r ∈ records, Ascii.soh ∉ r.value) : cut (render records) = records.map toBytes := by
  induction records with
  | nil => rfl
  | cons r rest ih =>
    have hr : Ascii.soh ∉ r.value := h r List.mem_cons_self
    have hrest : cut (render rest) = rest.map toBytes :=
      ih fun r' hr' => h r' (List.mem_cons_of_mem r hr')
    rw [render] at hrest ⊢
    rw [List.flatMap_cons, toBytes_eq, List.append_assoc, List.singleton_append,
      cut_append_soh (soh_not_mem_head hr), hrest, List.map_cons, toBytes_eq]

@[simp]
theorem render_nil : render [] = [] := rfl

@[simp]
theorem render_append (left right : List Record) :
    render (left ++ right) = render left ++ render right :=
  List.flatMap_append

@[simp]
theorem render_cons (r : Record) (rest : List Record) :
    render (r :: rest) = r.toBytes ++ render rest :=
  List.flatMap_cons

/-- A piece is a line, with the delimiter after it or, at the end, without. -/
theorem exists_line_of_mem_cut {bytes raw : Bytes} (h : raw ∈ cut bytes) :
    ∃ line, Ascii.soh ∉ line ∧ (raw = line ∨ raw = line ++ [Ascii.soh]) := by
  induction bytes generalizing raw with
  | nil => contradiction
  | cons b rest ih =>
    rw [cut] at h
    split at h
    · next hb =>
      rcases List.mem_cons.1 h with rfl | hrest
      · exact ⟨[], List.not_mem_nil, .inr (by rw [hb]; rfl)⟩
      · exact ih hrest
    · next hb =>
      have hne : Ascii.soh ≠ b := Ne.symm hb
      split at h
      · rw [List.mem_singleton.1 h]
        exact ⟨[b], by simp [hne], .inl rfl⟩
      · next first more hcut =>
        rw [hcut] at ih
        rcases List.mem_cons.1 h with rfl | hmore
        · obtain ⟨line, hline, hfirst⟩ := ih List.mem_cons_self
          refine ⟨b :: line, by simp [hne, hline], ?_⟩
          rcases hfirst with rfl | rfl
          · exact .inl rfl
          · exact .inr rfl
        · exact ih (List.mem_cons_of_mem first hmore)

theorem soh_not_mem_trimmed {bytes raw : Bytes} (h : raw ∈ cut bytes) :
    Ascii.soh ∉ trimmed raw := by
  obtain ⟨line, hline, hraw⟩ := exists_line_of_mem_cut h
  rcases hraw with rfl | rfl
  · rw [trimmed]
    split
    · next hlast => exact absurd (List.mem_of_getLast? hlast) hline
    · exact hline
  · rw [trimmed_append_soh]
    exact hline

/-- A record that is read from a piece may stand on the wire again. -/
theorem isWritable_of_mem_cut {bytes raw : Bytes} {r : Record} (h : raw ∈ cut bytes)
    (hparse : parse raw = .ok r) : r.IsWritable := by
  have hsoh := soh_not_mem_trimmed h
  rw [parse] at hparse
  split at hparse
  · contradiction
  next value hrest =>
  split at hparse
  · contradiction
  next tag htag =>
  split at hparse
  · contradiction
  next hvalue =>
  cases hparse
  refine ⟨Tag.ne_zero_of_parse? htag, by simpa using hvalue, ?_⟩
  intro hmem
  have hafter : Ascii.soh ∈ (trimmed raw).dropWhile (· ≠ Ascii.equals) := by
    rw [hrest]
    exact List.mem_cons_of_mem _ hmem
  exact hsoh ((List.dropWhile_suffix _).mem hafter)

/-! ### Tags and texts of raw records -/

/-- The tag of a record as it arrives, if it is well formed. -/
def tag? (raw : Bytes) : Option Tag :=
  (parse raw).toOption.map (·.tag)

/-- The text that a record carries, if it is well formed and its value is
UTF-8. -/
def text? (raw : Bytes) : Option String :=
  (parse raw).toOption.bind fun r => Utf8.decode? r.value

theorem tag?_eq_some_iff {raw : Bytes} {tag : Tag} :
    tag? raw = some tag ↔ ∃ r, parse raw = .ok r ∧ r.tag = tag := by
  rw [tag?]
  cases parse raw with
  | ok r => simp [Except.toOption]
  | error fault => simp [Except.toOption]

theorem tag?_of_parse {raw : Bytes} {r : Record} (h : parse raw = .ok r) :
    tag? raw = some r.tag :=
  tag?_eq_some_iff.2 ⟨r, h, rfl⟩

theorem text?_of_parse {raw : Bytes} {r : Record} (h : parse raw = .ok r) :
    text? raw = Utf8.decode? r.value := by
  rw [text?, h]
  rfl

end Record

end FixEngine
