import FixEngine.Proofs.Wire.Admissible
import FixEngine.Proofs.Wire.Checksum

/-!
# The wire form of a message

`Message.layout` lists the records of a written message by their tags, and
`Message.IsWireForm` says how its bytes are cut into them, what the body length counts
and what the checksum adds up.  A message that may be written is added to a buffer in
its wire form, whatever the buffer holds; any other message leaves the buffer alone.
-/

namespace FixEngine

namespace Message

/-! ### Layout -/

/-- A record that is written if there is a value. -/
def present (tag : Tag) (value : Option Bytes) : List Record :=
  (value.map (Record.mk tag)).toList

/-- The records of a written message of a type, with the count and the sum that frame
it. -/
def layout (m : Message) (t : MsgType) (count sum : Bytes) : List Record :=
  [⟨8, Utf8.encode m.header.beginString⟩, ⟨9, count⟩, ⟨35, Utf8.encode t.text⟩,
      ⟨49, Utf8.encode m.header.senderCompId⟩, ⟨56, Utf8.encode m.header.targetCompId⟩]
    ++ present 34 (m.header.msgSeqNum.map fun n => Numeral.ofNat n.toNat)
    ++ present 50 (m.header.senderSubId.map Utf8.encode)
    ++ present 57 (m.header.targetSubId.map Utf8.encode)
    ++ present 142 (m.header.senderLocationId.map Utf8.encode)
    ++ present 143 (m.header.targetLocationId.map Utf8.encode)
    ++ present 52 (m.header.sendingTime.map Timestamp.toBytes)
    ++ m.header.fields.map Field.record ++ m.bodyRecords ++ m.trailer.fields.map Field.record
    ++ [⟨10, sum⟩]

/-- The bytes are the wire form of a message.  They are cut at the delimiters into the
records of its layout, none of which has an empty value or the delimiter in it.  The
count is that of the bytes from its own record to the checksum, and the sum is that of
all bytes before the checksum, in three digits. -/
structure IsWireForm (m : Message) (t : MsgType) (content sum bytes : Bytes) : Prop where
  msgType : m.header.msgType = some t
  cut : Record.cut bytes =
    (m.layout t (Numeral.ofNat content.length) sum).map Record.toBytes
  writable : ∀ r ∈ m.layout t (Numeral.ofNat content.length) sum, Bytes.IsWritable r.value
  frame : bytes =
    Record.toBytes ⟨8, Utf8.encode m.header.beginString⟩
      ++ Record.toBytes ⟨9, Numeral.ofNat content.length⟩ ++ content ++ Record.toBytes ⟨10, sum⟩
  sum_length : sum.length = 3
  sum_allDigits : Numeral.allDigits sum = true
  sum_value : Numeral.value sum =
    ((Record.toBytes ⟨8, Utf8.encode m.header.beginString⟩
      ++ Record.toBytes ⟨9, Numeral.ofNat content.length⟩ ++ content).map UInt8.toNat).sum % 256

variable {m : Message} {t : MsgType} {bytes : Bytes}

theorem filterMap_ofText (tag : Tag) (text : Option String) (rest : List (Tag × Option String)) :
    ((tag, text) :: rest).filterMap (fun (tag, text) => text.map (Record.ofText tag)) =
      present tag (text.map Utf8.encode) ++
        rest.filterMap fun (tag, text) => text.map (Record.ofText tag) := by
  cases text <;> rfl

/-- The slots are written in the order of the layout. -/
theorem slotRecords_eq (htype : m.header.msgType = some t) :
    m.header.slotRecords =
      [⟨35, Utf8.encode t.text⟩, ⟨49, Utf8.encode m.header.senderCompId⟩,
          ⟨56, Utf8.encode m.header.targetCompId⟩]
        ++ present 34 (m.header.msgSeqNum.map fun n => Numeral.ofNat n.toNat)
        ++ present 50 (m.header.senderSubId.map Utf8.encode)
        ++ present 57 (m.header.targetSubId.map Utf8.encode)
        ++ present 142 (m.header.senderLocationId.map Utf8.encode)
        ++ present 143 (m.header.targetLocationId.map Utf8.encode)
        ++ present 52 (m.header.sendingTime.map Timestamp.toBytes) := by
  have hnumber : (m.header.msgSeqNum.map fun n => Record.ofNat Tag.msgSeqNum n.toNat).toList =
      present 34 (m.header.msgSeqNum.map fun n => Numeral.ofNat n.toNat) := by
    cases m.header.msgSeqNum <;> rfl
  have htime : (m.header.sendingTime.map fun t => Record.mk Tag.sendingTime t.toBytes).toList =
      present 52 (m.header.sendingTime.map Timestamp.toBytes) := by
    cases m.header.sendingTime <;> rfl
  rw [Header.slotRecords, htype, hnumber, htime, Header.partyDetails, filterMap_ofText,
    filterMap_ofText, filterMap_ofText, filterMap_ofText, List.filterMap_nil, List.append_nil]
  simp only [List.append_assoc]
  rfl

/-- Between the body length and the checksum the layout has the records of the message. -/
theorem layout_eq (htype : m.header.msgType = some t) (count sum : Bytes) :
    m.layout t count sum =
      m.firstRecord :: ⟨9, count⟩ :: (m.records ++ [⟨10, sum⟩]) := by
  rw [records, slotRecords_eq htype, freeFields, List.map_append, List.map_append, ← bodyRecords,
    layout]
  simp only [List.append_assoc, List.cons_append, List.nil_append]
  rfl

theorem sum_render (bytes : Bytes) :
    Numeral.value (Checksum.render (Checksum.ofBytes bytes)) = (bytes.map UInt8.toNat).sum % 256 := by
  have hzero : (0 : UInt8).toNat = 0 := rfl
  rw [Checksum.render, Numeral.value_padded, Checksum.ofBytes, Checksum.toNat_extend, hzero,
    Nat.zero_add]

theorem isWireForm_render (hcheck : m.check = .ok ()) (htype : m.header.msgType = some t) :
    m.IsWireForm t (Record.render m.records) (Checksum.render (Checksum.ofBytes m.renderUnsummed))
      m.render := by
  have hlayout := layout_eq htype (Numeral.ofNat (Record.render m.records).length)
    (Checksum.render (Checksum.ofBytes m.renderUnsummed))
  have hwritable : ∀ r ∈ m.layout t (Numeral.ofNat (Record.render m.records).length)
      (Checksum.render (Checksum.ofBytes m.renderUnsummed)), Bytes.IsWritable r.value := by
    have hbegin := (Header.isWritable_of_check (check_eq_ok_iff.1 hcheck).1).2.1.value
    rw [hlayout, List.forall_mem_cons, List.forall_mem_cons, List.forall_mem_append,
      List.forall_mem_singleton]
    exact ⟨hbegin, Numeral.isWritable_ofNat _, isWritable_records hcheck,
      Numeral.isWritable_padded 3 _⟩
  have hrender : m.render = Record.render (m.layout t
      (Numeral.ofNat (Record.render m.records).length)
      (Checksum.render (Checksum.ofBytes m.renderUnsummed))) := by
    rw [hlayout, render_eq]
    rfl
  have hlt : (Checksum.ofBytes m.renderUnsummed).toNat < 256 := UInt8.toNat_lt _
  exact
    { msgType := htype
      cut := by
        rw [hrender]
        exact Record.cut_render_of_soh_not_mem fun r hr => (hwritable r hr).soh_not_mem
      writable := hwritable
      frame := rfl
      sum_length := Numeral.length_padded (by omega) (by omega)
      sum_allDigits := Numeral.allDigits_padded 3 _
      sum_value := sum_render m.renderUnsummed }

/-- A message that may be written is added to a buffer in its wire form; any other
message is refused and leaves the buffer as it is. -/
theorem written_in_wireForm (m : Message) (buffer : Bytes) :
    (m.IsEncodable ∧ ∃ t content sum bytes, m.encode = .ok bytes ∧
      m.IsWireForm t content sum bytes ∧ m.encodeInto buffer = (buffer ++ bytes, .ok ())) ∨
    (¬m.IsEncodable ∧ ∃ fault, m.encode = .error fault ∧
      m.encodeInto buffer = (buffer, .error fault)) := by
  by_cases hencodable : m.IsEncodable
  · obtain ⟨t, htype, -⟩ := hencodable.header.msgType
    have hcheck := check_iff.2 hencodable
    have hencode : m.encode = .ok m.render := encode_eq_ok_iff.2 ⟨hcheck, rfl⟩
    refine .inl ⟨hencodable, t, _, _, _, hencode, isWireForm_render hcheck htype, ?_⟩
    rw [encodeInto_eq, hencode]
  · refine .inr ⟨hencodable, ?_⟩
    cases hencode : m.encode with
    | ok bytes => exact absurd (exists_encode_iff.1 ⟨bytes, hencode⟩) hencodable
    | error fault => exact ⟨fault, rfl, by rw [encodeInto_eq, hencode]⟩

end Message

end FixEngine
