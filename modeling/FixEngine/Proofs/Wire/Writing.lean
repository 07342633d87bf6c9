import FixEngine.Proofs.Outcome
import FixEngine.Proofs.Wire.Record

/-!
# What the encoder lets through

A message that passes the checks of the encoder is written as records that may
stand on the wire, as long as no tag is zero.
-/

namespace FixEngine

/-! ### Texts -/

/-- A text passes its check if it may stand on the wire. -/
theorem checkText_eq_ok_iff {tag : Tag} {text : String} :
    checkText tag text = .ok () ↔ Bytes.IsWritable (Utf8.encode text) := by
  have hempty : text.isEmpty = true ↔ Utf8.encode text = [] := by
    rw [Utf8.encode_eq_nil_iff]
    simp
  rw [checkText]
  constructor
  · intro h
    split at h
    · contradiction
    · next hne =>
      split at h
      · contradiction
      · next hsoh => exact ⟨fun hnil => hne (hempty.2 hnil), hsoh⟩
  · intro h
    rw [if_neg fun hnil => h.ne_nil (hempty.1 hnil), if_neg h.soh_not_mem]

theorem requireText_eq_ok_iff {tag : Tag} {text : String} :
    requireText tag text = .ok () ↔ Bytes.IsWritable (Utf8.encode text) := by
  rw [requireText, ← checkText_eq_ok_iff]
  split
  · next hempty => simp [checkText, hempty]
  · rfl

/-! ### Fields -/

/-- A tag passes its check if it neither frames a message nor has a slot. -/
theorem Tag.checkFree_eq_ok_iff {tag : Tag} :
    tag.checkFree = .ok () ↔
      tag ≠ beginString ∧ tag ≠ checkSum ∧ Slot.ofTag? tag = none := by
  have hlength : tag = bodyLength → Slot.ofTag? tag ≠ none := by
    rintro rfl
    decide
  rw [checkFree]
  cases hslot : Slot.ofTag? tag with
  | some slot =>
    simp only [Option.isSome_some, if_true]
    split
    · simp
    · simp
  | none =>
    have hne : tag ≠ bodyLength := fun h => hlength h hslot
    simp [isFraming, hne]

namespace Field

variable {f : Field}

theorem check_eq_ok_iff :
    f.check = .ok () ↔ f.tag.checkFree = .ok () ∧
      (∀ text, f.value = .text text → checkText f.tag text = .ok ()) ∧
      (∀ c, f.value = .char c → checkText f.tag (String.ofList [c]) = .ok ()) := by
  rw [check, check_bind_eq_ok_iff, and_congr_right_iff]
  intro _
  cases f.value with
  | text text => simp
  | char c => simp
  | flag b => simp [pure, Except.pure]
  | integer n => simp [pure, Except.pure]
  | decimal n => simp [pure, Except.pure]
  | timestamp t => simp [pure, Except.pure]
  | date t => simp [pure, Except.pure]
  | time t => simp [pure, Except.pure]

theorem checkFree_of_check (h : f.check = .ok ()) : f.tag.checkFree = .ok () :=
  (check_eq_ok_iff.1 h).1

/-- The value of a field that passes its check may stand on the wire. -/
theorem isWritable_of_check (h : f.check = .ok ()) : Bytes.IsWritable f.value.toBytes := by
  obtain ⟨-, htext, hchar⟩ := check_eq_ok_iff.1 h
  cases hvalue : f.value with
  | text text => exact checkText_eq_ok_iff.1 (htext text hvalue)
  | char c =>
    have hc := checkText_eq_ok_iff.1 (hchar c hvalue)
    rwa [Utf8.encode_ofList_singleton] at hc
  | flag b => cases b <;> exact .cons (by decide) (by simp)
  | integer n => exact Numeral.isWritable_ofInt n.toInt
  | decimal n => exact n.isWritable_toBytes
  | timestamp t => exact t.isWritable_toBytes
  | date t => exact t.isWritable_toBytes
  | time t => exact t.isWritable_toBytes

theorem check_of_isWritable (htag : f.tag.checkFree = .ok ())
    (h : Bytes.IsWritable f.value.toBytes) : f.check = .ok () := by
  refine check_eq_ok_iff.2 ⟨htag, ?_, ?_⟩
  · intro text hvalue
    rw [hvalue] at h
    exact checkText_eq_ok_iff.2 h
  · intro c hvalue
    rw [hvalue] at h
    rw [checkText_eq_ok_iff, Utf8.encode_ofList_singleton]
    exact h

end Field

/-! ### Messages -/

theorem Slot.tag_ne (slot : Slot) :
    slot.tag ≠ 0 ∧ slot.tag ≠ Tag.beginString ∧ slot.tag ≠ Tag.checkSum := by
  cases slot <;> decide

theorem Header.exists_slot {h : Header} {r : Record} (hr : r ∈ h.slotRecords) :
    ∃ slot : Slot, r.tag = slot.tag := by
  simp only [slotRecords, partyDetails, List.mem_append, List.mem_cons, List.not_mem_nil, or_false,
    Option.mem_toList, Option.map_eq_some_iff, List.mem_filterMap] at hr
  rcases hr with (((⟨t, -, rfl⟩ | rfl | rfl) | ⟨n, -, rfl⟩) | ⟨⟨tag, text⟩, hdetail, s, -, rfl⟩) |
    ⟨time, -, rfl⟩
  · exact ⟨.msgType, rfl⟩
  · exact ⟨.senderCompId, rfl⟩
  · exact ⟨.targetCompId, rfl⟩
  · exact ⟨.msgSeqNum, rfl⟩
  · rcases hdetail with hdetail | hdetail | hdetail | hdetail
    all_goals cases hdetail
    · exact ⟨.senderSubId, rfl⟩
    · exact ⟨.targetSubId, rfl⟩
    · exact ⟨.senderLocationId, rfl⟩
    · exact ⟨.targetLocationId, rfl⟩
  · exact ⟨.sendingTime, rfl⟩

/-- The slots of a header that passes its check may stand on the wire. -/
theorem Header.isWritable_of_check {h : Header} (hcheck : h.check = .ok ()) :
    (∃ t, h.msgType = some t) ∧
      (Record.ofText Tag.beginString h.beginString).IsWritable ∧
      ∀ r ∈ h.slotRecords, r.IsWritable := by
  rw [check] at hcheck
  cases htype : h.msgType with
  | none =>
    rw [htype] at hcheck
    contradiction
  | some t =>
    rw [htype] at hcheck
    simp only [check_bind_eq_ok_iff] at hcheck
    obtain ⟨hbegin, htext, hsender, htarget, hdetails⟩ := hcheck
    rw [forM_eq_ok_iff] at hdetails
    have htag : Tag.beginString ≠ 0 := by decide
    refine ⟨⟨t, rfl⟩, ⟨htag, requireText_eq_ok_iff.1 hbegin⟩, ?_⟩
    intro r hr
    obtain ⟨slot, hslot⟩ := exists_slot hr
    have hzero : r.tag ≠ 0 := by
      rw [hslot]
      exact slot.tag_ne.1
    refine ⟨hzero, ?_⟩
    simp only [slotRecords, htype, Option.map_some, Option.toList_some, List.mem_append,
      List.mem_cons, List.not_mem_nil, or_false, Option.mem_toList, Option.map_eq_some_iff,
      List.mem_filterMap] at hr
    rcases hr with (((rfl | rfl | rfl) | ⟨n, -, rfl⟩) | ⟨⟨tag, text⟩, hdetail, s, hs, rfl⟩) |
      ⟨time, -, rfl⟩
    · exact requireText_eq_ok_iff.1 htext
    · exact requireText_eq_ok_iff.1 hsender
    · exact requireText_eq_ok_iff.1 htarget
    · exact Numeral.isWritable_ofNat n.toNat
    · have hcheck := hdetails ⟨tag, text⟩ hdetail
      dsimp only at hs
      rw [hs] at hcheck
      exact checkText_eq_ok_iff.1 hcheck
    · exact time.isWritable_toBytes

namespace Message

variable {m : Message} {bytes : Bytes}

theorem encode_eq_ok_iff : m.encode = .ok bytes ↔ m.check = .ok () ∧ m.render = bytes := by
  rw [encode]
  cases m.check with
  | ok u => exact ⟨fun h => ⟨rfl, Except.ok.inj h⟩, fun h => congrArg Except.ok h.2⟩
  | error fault =>
    constructor
    · intro h
      contradiction
    · rintro ⟨h, -⟩
      contradiction

theorem check_eq_ok_iff :
    m.check = .ok () ↔ m.header.check = .ok () ∧ ∀ f ∈ m.freeFields, f.check = .ok () := by
  rw [check, check_bind_eq_ok_iff, forM_eq_ok_iff]

/-- What a message that passes its checks holds may stand on the wire. -/
theorem isWritable_records (hcheck : m.check = .ok ()) :
    ∀ r ∈ m.records, Bytes.IsWritable r.value := by
  obtain ⟨hheader, hfields⟩ := check_eq_ok_iff.1 hcheck
  obtain ⟨-, -, hslots⟩ := Header.isWritable_of_check hheader
  intro r hr
  rcases List.mem_append.1 hr with hslot | hfree
  · exact (hslots r hslot).value
  · obtain ⟨f, hf, rfl⟩ := List.mem_map.1 hfree
    exact Field.isWritable_of_check (hfields f hf)

/-- The record of the version, with which a message begins. -/
def firstRecord (m : Message) : Record := Record.ofText Tag.beginString m.header.beginString

/-- The records between the version and the checksum. -/
def innerRecords (m : Message) : List Record :=
  Record.ofNat Tag.bodyLength (Record.render m.records).length :: m.records

/-- The record of the checksum, with which a message ends. -/
def lastRecord (m : Message) : Record :=
  ⟨Tag.checkSum, Checksum.render (Checksum.ofBytes m.renderUnsummed)⟩

theorem renderUnsummed_eq (m : Message) :
    m.renderUnsummed = m.firstRecord.toBytes ++ Record.render m.innerRecords := by
  rw [innerRecords, Record.render_cons, ← List.append_assoc]
  rfl

theorem render_eq (m : Message) :
    m.render = Record.render (m.firstRecord :: (m.innerRecords ++ [m.lastRecord])) := by
  calc
    m.render = m.renderUnsummed ++ m.lastRecord.toBytes := rfl
    _ = m.firstRecord.toBytes ++ (Record.render m.innerRecords ++ m.lastRecord.toBytes) := by
      rw [renderUnsummed_eq, List.append_assoc]
    _ = Record.render (m.firstRecord :: (m.innerRecords ++ [m.lastRecord])) := by
      rw [Record.render_cons, Record.render_append, Record.render_cons, Record.render_nil,
        List.append_nil]

end Message

end FixEngine
