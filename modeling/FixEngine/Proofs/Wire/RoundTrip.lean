import FixEngine.Proofs.Wire.Frame
import FixEngine.Proofs.Wire.Placement

/-!
# Round trip

A message in form that the encoder accepts is read back from its written form as
one message, which differs from it in nothing but the length and the checksum.
The parts of the message are followed in the order of writing: the slots, the
header fields, the body and the trailer fields.
-/

namespace FixEngine

/-- Every slot is part of the header. -/
theorem Slot.ofTag?_eq_none {tag : Tag} (h : tag.isHeader = false) : Slot.ofTag? tag = none := by
  rw [ofTag?, List.find?_eq_none]
  intro slot _ htag
  rw [decide_eq_true_eq] at htag
  rw [← htag] at h
  cases slot <;> contradiction

namespace MessageDraft

variable {d : Dictionary} {draft next last : MessageDraft}

/-! ### The slots -/

/-- A record under the tag of a slot fills it. -/
theorem addRecord_slot (slot : Slot) {value : Bytes} {header : Header}
    (h : draft.header.fill d slot value = .ok header) :
    draft.addRecord d ⟨slot.tag, value⟩ = .ok { draft with header } := by
  simp only [addRecord, Slot.ofTag?_tag, h]
  rfl

/-- A slot that may stay empty is filled from the record it was written as. -/
theorem addAll_slot {α : Type} (slot : Slot) (toBytes : α → Bytes) (write : Option α → Header)
    {value? : Option α} (hempty : draft.header = write none)
    (hfill : ∀ a, value? = some a →
      draft.header.fill d slot (toBytes a) = .ok (write (some a))) :
    draft.addAll d (value?.map fun a => Record.mk slot.tag (toBytes a)).toList =
      .ok { draft with header := write value? } := by
  cases value? with
  | none =>
    rw [← hempty]
    rfl
  | some a => exact addAll_cons (addRecord_slot slot (hfill a rfl)) rfl

theorem filterMap_cons_toList {α β : Type} (f : α → Option β) (a : α) (rest : List α) :
    (a :: rest).filterMap f = (f a).toList ++ rest.filterMap f := by
  rw [List.filterMap_cons]
  cases f a with
  | none => rfl
  | some b => rfl

/-- The slots are filled from the records they were written as. -/
theorem addAll_slotRecords {h : Header} {t : MsgType} (htype : h.msgType = some t)
    (hofText : MsgType.ofText t.text = t)
    (htime : ∀ time, h.sendingTime = some time →
      d.read Tag.sendingTime time.toBytes = .ok (.timestamp time))
    {bodyLength : Option UInt32}
    (hdraft : draft.header = { beginString := h.beginString, bodyLength }) :
    draft.addAll d h.slotRecords =
      .ok { draft with header := { h with bodyLength, fields := [] } } := by
  let first : Header := { beginString := h.beginString, bodyLength }
  let typed : Header := { first with msgType := h.msgType }
  let sent : Header := { typed with senderCompId := h.senderCompId }
  let addressed : Header := { sent with targetCompId := h.targetCompId }
  let numbered : Header := { addressed with msgSeqNum := h.msgSeqNum }
  let fromDesk : Header := { numbered with senderSubId := h.senderSubId }
  let toDesk : Header := { fromDesk with targetSubId := h.targetSubId }
  let fromPlace : Header := { toDesk with senderLocationId := h.senderLocationId }
  let toPlace : Header := { fromPlace with targetLocationId := h.targetLocationId }
  have htyped : draft.addRecord d (Record.ofText Tag.msgType t.text) =
      .ok { draft with header := typed } := by
    apply addRecord_slot .msgType
    rw [hdraft, Header.fill, Value.readText_encode]
    show Except.ok { first with msgType := some (MsgType.ofText t.text) } =
      Except.ok { first with msgType := h.msgType }
    rw [hofText, htype]
  have hsent : ({ draft with header := typed } : MessageDraft).addRecord d
      (Record.ofText Tag.senderCompId h.senderCompId) = .ok { draft with header := sent } := by
    apply addRecord_slot .senderCompId
    rw [Header.fill, Value.readText_encode]
    rfl
  have haddressed : ({ draft with header := sent } : MessageDraft).addRecord d
      (Record.ofText Tag.targetCompId h.targetCompId) =
        .ok { draft with header := addressed } := by
    apply addRecord_slot .targetCompId
    rw [Header.fill, Value.readText_encode]
    rfl
  have hnumbered : ({ draft with header := addressed } : MessageDraft).addAll d
      (h.msgSeqNum.map fun n => Record.ofNat Tag.msgSeqNum n.toNat).toList =
        .ok { draft with header := numbered } := by
    apply addAll_slot .msgSeqNum (fun n => Numeral.ofNat n.toNat)
      fun msgSeqNum => { addressed with msgSeqNum }
    · rfl
    · intro n _
      rw [Header.fill, Value.readUnsigned_ofNat]
      rfl
  have hfromDesk : ({ draft with header := numbered } : MessageDraft).addAll d
      (h.senderSubId.map (Record.ofText Tag.senderSubId)).toList =
        .ok { draft with header := fromDesk } := by
    apply addAll_slot .senderSubId Utf8.encode fun senderSubId => { numbered with senderSubId }
    · rfl
    · intro text _
      rw [Header.fill, Value.readText_encode]
      rfl
  have htoDesk : ({ draft with header := fromDesk } : MessageDraft).addAll d
      (h.targetSubId.map (Record.ofText Tag.targetSubId)).toList =
        .ok { draft with header := toDesk } := by
    apply addAll_slot .targetSubId Utf8.encode fun targetSubId => { fromDesk with targetSubId }
    · rfl
    · intro text _
      rw [Header.fill, Value.readText_encode]
      rfl
  have hfromPlace : ({ draft with header := toDesk } : MessageDraft).addAll d
      (h.senderLocationId.map (Record.ofText Tag.senderLocationId)).toList =
        .ok { draft with header := fromPlace } := by
    apply addAll_slot .senderLocationId Utf8.encode
      fun senderLocationId => { toDesk with senderLocationId }
    · rfl
    · intro text _
      rw [Header.fill, Value.readText_encode]
      rfl
  have htoPlace : ({ draft with header := fromPlace } : MessageDraft).addAll d
      (h.targetLocationId.map (Record.ofText Tag.targetLocationId)).toList =
        .ok { draft with header := toPlace } := by
    apply addAll_slot .targetLocationId Utf8.encode
      fun targetLocationId => { fromPlace with targetLocationId }
    · rfl
    · intro text _
      rw [Header.fill, Value.readText_encode]
      rfl
  have htimed : ({ draft with header := toPlace } : MessageDraft).addAll d
      (h.sendingTime.map fun time => Record.mk Tag.sendingTime time.toBytes).toList =
        .ok { draft with header := { h with bodyLength, fields := [] } } := by
    apply addAll_slot .sendingTime Timestamp.toBytes fun sendingTime => { toPlace with sendingTime }
    · rfl
    · intro time hsome
      rw [Header.fill, htime time hsome]
      rfl
  have hkind : (h.msgType.map fun t => Record.ofText Tag.msgType t.text).toList =
      [Record.ofText Tag.msgType t.text] := by
    rw [htype]
    rfl
  rw [Header.slotRecords, hkind, Header.partyDetails]
  simp only [filterMap_cons_toList, List.filterMap_nil, List.append_nil]
  have hnames := addAll_cons htyped (addAll_cons hsent (addAll_cons haddressed (addAll_nil d _)))
  have hparties :=
    addAll_append hfromDesk (addAll_append htoDesk (addAll_append hfromPlace htoPlace))
  exact addAll_append (addAll_append (addAll_append hnames hnumbered) hparties) htimed

/-! ### The other fields -/

theorem addAll_headerFields {fields : List Field}
    (h : ∀ f ∈ fields, f.tag.isHeader = true ∧ Slot.ofTag? f.tag = none ∧ f.ReadsBack d) :
    draft.addAll d (fields.map Field.record) =
      .ok { draft with
        header := { draft.header with fields := draft.header.fields ++ fields } } := by
  induction fields generalizing draft with
  | nil =>
    rw [List.append_nil]
    rfl
  | cons f rest ih =>
    rw [List.forall_mem_cons] at h
    obtain ⟨⟨hheader, hslot, hreads⟩, hrest⟩ := h
    have hf : draft.addRecord d f.record =
        .ok { draft with
          header := { draft.header with fields := draft.header.fields ++ [f] } } := by
      have htag : f.record.tag = f.tag := rfl
      simp only [addRecord, htag, hslot, hheader, if_true, BodyDraft.readField_record hreads]
      rfl
    have hlast := addAll_cons hf (ih hrest)
    simpa only [List.map_cons, List.append_assoc, List.singleton_append] using hlast

theorem addAll_body {records : List Record} (h : ∀ r ∈ records, r.tag.IsBody) {body : BodyDraft}
    (hbody : draft.body.placeAll d records = .ok body) :
    draft.addAll d records = .ok { draft with body } := by
  induction records generalizing draft with
  | nil =>
    cases hbody
    rfl
  | cons r rest ih =>
    rw [List.forall_mem_cons] at h
    obtain ⟨hr, hrest⟩ := h
    obtain ⟨next, hplace, hlast⟩ := foldlM_cons_eq_ok_iff.1 hbody
    have hslot : Slot.ofTag? r.tag = none := Slot.ofTag?_eq_none hr.isHeader
    have hnext : draft.addRecord d r = .ok { draft with body := next } := by
      simp only [addRecord, hslot, hr.isHeader, hr.isTrailer, Bool.false_eq_true, if_false, hplace]
      rfl
    have htail : ({ draft with body := next } : MessageDraft).addAll d rest =
        .ok { draft with body } := ih hrest hlast
    exact addAll_cons hnext htail

theorem addAll_trailerFields {fields : List Field} {entries : List Entry}
    (h : ∀ f ∈ fields, (f.tag = Tag.signature ∨ f.tag = Tag.signatureLength) ∧ f.ReadsBack d)
    (hclose : draft.body.close = .ok entries) :
    ∃ body, draft.addAll d (fields.map Field.record) =
        .ok { draft with body, trailerFields := draft.trailerFields ++ fields } ∧
      body.close = .ok entries := by
  induction fields generalizing draft with
  | nil =>
    refine ⟨draft.body, ?_, hclose⟩
    rw [List.append_nil]
    rfl
  | cons f rest ih =>
    rw [List.forall_mem_cons] at h
    obtain ⟨⟨htag, hreads⟩, hrest⟩ := h
    have hpart : Slot.ofTag? f.tag = none ∧ f.tag.isHeader = false ∧ f.tag.isTrailer = true := by
      rcases htag with htag | htag
      · rw [htag]
        decide
      · rw [htag]
        decide
    obtain ⟨hslot, hheader, htrailer⟩ := hpart
    let next : MessageDraft :=
      { draft with body := { entries }, trailerFields := draft.trailerFields ++ [f] }
    have hf : draft.addRecord d f.record = .ok next := by
      have htag' : f.record.tag = f.tag := rfl
      simp only [addRecord, htag', hslot, hheader, htrailer, Bool.false_eq_true, if_false, if_true,
        hclose, BodyDraft.readField_record hreads]
      rfl
    have hnext : next.body.close = .ok entries := BodyDraft.close_nil
    obtain ⟨body, hadd, hbody⟩ := ih hrest hnext
    have hlast := addAll_cons hf hadd
    refine ⟨body, ?_, hbody⟩
    simpa only [next, List.map_cons, List.append_assoc, List.singleton_append] using hlast

end MessageDraft

namespace Message

variable {d : Dictionary} {m : Message} {bytes : Bytes}

/-- The message with the length and the checksum of its written form. -/
def received (m : Message) : Message :=
  { m with
    header := { m.header with bodyLength := some (UInt32.ofNat (Record.render m.records).length) }
    trailer := { m.trailer with checkSum := some (Checksum.ofBytes m.renderUnsummed) } }

theorem length_le_length_render (records : List Record) :
    records.length ≤ (Record.render records).length := by
  induction records with
  | nil => exact Nat.zero_le _
  | cons r rest ih =>
    rw [Record.render_cons, Record.toBytes_eq, List.length_append, List.length_append,
      List.length_singleton, List.length_cons]
    omega

theorem length_fieldsOf_le (m : Message) :
    (Entry.fieldsOf m.body).length ≤ (Record.render m.records).length := by
  have hlength := length_le_length_render m.records
  simp only [records, freeFields, List.length_append, List.length_map] at hlength
  simp only [records, freeFields]
  omega

/-- A dictionary reads the parts of a message from the records that they are written
as.  The content has to be short enough for its length to be read. -/
structure Rebuilds (m : Message) (d : Dictionary) : Prop where
  msgType : ∀ t, m.header.msgType = some t → MsgType.ofText t.text = t
  sendingTime : ∀ t, m.header.sendingTime = some t →
    d.read Tag.sendingTime t.toBytes = .ok (.timestamp t)
  headerFields : ∀ f ∈ m.header.fields, f.tag.isHeader = true ∧ f.ReadsBack d
  bodyTags : ∀ f ∈ Entry.fieldsOf m.body, f.tag.IsBody
  body : ∃ body, BodyDraft.placeAll d {} m.bodyRecords = .ok body ∧ body.close = .ok m.body
  trailerFields : ∀ f ∈ m.trailer.fields,
    (f.tag = Tag.signature ∨ f.tag = Tag.signatureLength) ∧ f.ReadsBack d
  short : (Record.render m.records).length < 4294967296

theorem InForm.rebuilds (h : m.InForm d) : m.Rebuilds d where
  msgType := h.msgType
  sendingTime := by
    intro time hsome
    rw [Dictionary.read, h.sendingTimeType, Value.read, h.sendingTime time hsome]
    rfl
  headerFields := h.headerFields
  bodyTags := Entry.isBody_fieldsOf m.body h.body
  body := by
    apply Entry.placeAll_body h.body
    have hle := length_fieldsOf_le m
    have hshort := h.short
    omega
  trailerFields := h.trailerFields
  short := h.short

/-- The records that rebuild a message do so between the records around them. -/
theorem addAll_records (hcheck : m.check = .ok ()) (h : m.Rebuilds d) (draft : MessageDraft)
    (hheader : draft.header = { beginString := m.header.beginString }) (hbody : draft.body = {})
    (htrailer : draft.trailerFields = []) :
    ∃ body, body.close = .ok m.body ∧
      draft.addAll d m.innerRecords =
        .ok ⟨m.received.header, body, m.trailer.fields, draft.sum⟩ := by
  obtain ⟨hcheckHeader, hfields⟩ := check_eq_ok_iff.1 hcheck
  obtain ⟨⟨t, htype⟩, -, -⟩ := Header.isWritable_of_check hcheckHeader
  let length := (Record.render m.records).length
  let bodyLength := some (UInt32.ofNat length)
  have hlength : draft.addRecord d (Record.ofNat Tag.bodyLength length) =
      .ok { draft with header := { beginString := m.header.beginString, bodyLength } } := by
    have hvalue : (UInt32.ofNat length).toNat = length := UInt32.toNat_ofNat_of_lt' h.short
    have hread := Value.readUnsigned_ofNat (UInt32.ofNat length)
    rw [hvalue] at hread
    apply MessageDraft.addRecord_slot .bodyLength
    rw [Header.fill, hread, hheader]
    rfl
  have hslots : ({ draft with header := { beginString := m.header.beginString, bodyLength } } :
      MessageDraft).addAll d m.header.slotRecords =
        .ok { draft with header := { m.header with bodyLength, fields := [] } } :=
    MessageDraft.addAll_slotRecords htype (h.msgType t htype) h.sendingTime rfl
  have hcustom : ({ draft with header := { m.header with bodyLength, fields := [] } } :
      MessageDraft).addAll d (m.header.fields.map Field.record) =
        .ok { draft with header := m.received.header } := by
    apply MessageDraft.addAll_headerFields
    intro f hf
    have hfree : f ∈ m.freeFields := by simp [freeFields, hf]
    have hslot := (Tag.checkFree_eq_ok_iff.1 (Field.checkFree_of_check (hfields f hfree))).2.2
    exact ⟨(h.headerFields f hf).1, hslot, (h.headerFields f hf).2⟩
  obtain ⟨body, hplaced, hclose⟩ := h.body
  rw [← hbody] at hplaced
  have hinner : ({ draft with header := m.received.header } : MessageDraft).addAll d
      ((Entry.fieldsOf m.body).map Field.record) =
        .ok { draft with header := m.received.header, body } := by
    apply MessageDraft.addAll_body
    · intro r hr
      obtain ⟨f, hf, rfl⟩ := List.mem_map.1 hr
      exact h.bodyTags f hf
    · exact hplaced
  let placed : MessageDraft := { draft with header := m.received.header, body }
  have hplacedClose : placed.body.close = .ok m.body := hclose
  obtain ⟨body', htail, hclose'⟩ :=
    MessageDraft.addAll_trailerFields h.trailerFields hplacedClose
  have hlast : placed.addAll d (m.trailer.fields.map Field.record) =
      .ok ⟨m.received.header, body', m.trailer.fields, draft.sum⟩ := by
    have hnone : placed.trailerFields = [] := htrailer
    rw [htail, hnone, List.nil_append]
  have hfree := MessageDraft.addAll_append (MessageDraft.addAll_append hcustom hinner) hlast
  have hall := MessageDraft.addAll_append hslots hfree
  rw [← List.map_append, ← List.map_append] at hall
  exact ⟨body', hclose', MessageDraft.addAll_cons hlength hall⟩

/-- No tag is zero if each field stands in the part of the message that its tag is for. -/
theorem tag_ne_zero_of_parts (hheader : ∀ f ∈ m.header.fields, f.tag.isHeader = true)
    (hbody : ∀ f ∈ Entry.fieldsOf m.body, f.tag.IsBody)
    (htrailer : ∀ f ∈ m.trailer.fields, f.tag = Tag.signature ∨ f.tag = Tag.signatureLength) :
    ∀ f ∈ m.freeFields, f.tag ≠ 0 := by
  rw [freeFields, List.forall_mem_append, List.forall_mem_append]
  refine ⟨⟨?_, fun f hf => (hbody f hf).ne_zero⟩, ?_⟩
  · intro f hf hzero
    have hisHeader := hheader f hf
    rw [hzero] at hisHeader
    contradiction
  · intro f hf
    rcases htrailer f hf with htag | htag
    · rw [htag]
      decide
    · rw [htag]
      decide

/-- The written form of a message that passes the checks of the encoder hands over one
message or fault, which is what the records of the message make of their first one. -/
theorem decodeAll_render (d : Dictionary) (hcheck : m.check = .ok ())
    (hzero : ∀ f ∈ m.freeFields, f.tag ≠ 0) :
    decodeAll d m.render = [do
      let draft := MessageDraft.start m.header.beginString m.firstRecord.toBytes
      let last ← draft.addAll d m.innerRecords
      ({ last with sum := Checksum.ofBytes m.renderUnsummed } : MessageDraft).finish
        m.lastRecord.value] := by
  have htags : ∀ r ∈ m.innerRecords, r.tag ≠ 0 := fun r hr hr0 => by
    obtain ⟨f, hf, htag⟩ := exists_freeField_of_zero hr hr0
    exact hzero f hf htag
  rw [← render_frame hcheck, Frame.decodeAll_render, delivery_frame]
  dsimp only
  rw [MessageDraft.takeUpAll_eq_addAll htags]

/-- A message that passes the checks of the encoder, and whose records rebuild it, is
all that comes out of its written form. -/
theorem Rebuilds.decodeAll_render (hcheck : m.check = .ok ()) (h : m.Rebuilds d) :
    decodeAll d m.render = [.ok m.received] := by
  obtain ⟨body, hclose, hadd⟩ := addAll_records hcheck h
    (MessageDraft.start m.header.beginString m.firstRecord.toBytes) rfl rfl rfl
  have hzero := tag_ne_zero_of_parts (fun f hf => (h.headerFields f hf).1) h.bodyTags
    fun f hf => (h.trailerFields f hf).1
  rw [Message.decodeAll_render d hcheck hzero]
  dsimp only
  rw [hadd]
  exact congrArg (fun result => [result])
    (MessageDraft.finish_eq_ok_iff.2 ⟨m.body, hclose, Checksum.parse?_render _, rfl⟩)

/-- A message in form that the encoder accepts is read back from its written
form: all that comes out is one message, which differs in the length and the
checksum only. -/
theorem decodeAll_encode (d : Dictionary) (m : Message) (bytes : Bytes)
    (hencode : m.encode = .ok bytes) (h : m.InForm d) : decodeAll d bytes = [.ok m.received] := by
  obtain ⟨hcheck, rfl⟩ := encode_eq_ok_iff.1 hencode
  exact h.rebuilds.decodeAll_render hcheck

/-- An order with a group inside the instances of another one. -/
def sampleOrder : Message where
  header := {
    beginString := "FIX.4.4"
    msgType := some .newOrderSingle
    senderCompId := "BUY"
    targetCompId := "SELL"
    msgSeqNum := some 7
    sendingTime := some Timestamp.epoch
    fields := [⟨Tag.possDupFlag, .flag true⟩] }
  body := [
    .field ⟨Tag.clOrdId, .text "A1"⟩,
    .group Tag.noPartyIds [
      [.field ⟨Tag.partyId, .text "P1"⟩,
        .group 802 [[.field ⟨523, .text "S1"⟩, .field ⟨803, .integer 4⟩]],
        .field ⟨Tag.partyRole, .integer 1⟩],
      [.field ⟨Tag.partyId, .text "P2"⟩]],
    .field ⟨Tag.symbol, .text "IBM"⟩]
  trailer := { fields := [⟨Tag.signature, .text "S"⟩] }

theorem inForm_sampleOrder : sampleOrder.InForm Dictionary.usual where
  msgType := by
    intro t ht
    cases ht
    rfl
  sendingTimeType := rfl
  sendingTime := by
    intro t ht
    cases ht
    rfl
  headerFields := by
    intro f hf
    rw [List.mem_singleton.1 hf]
    exact ⟨rfl, rfl⟩
  body := by
    have htag (tag : Tag) (h : (tag ≠ 0 ∧ tag.isHeader = false ∧ tag.isTrailer = false)) :
        tag.IsBody := ⟨h.1, h.2.1, h.2.2⟩
    have hnone (tag : Tag) : Nest.Refuses [] tag := fun _ h => absurd h List.not_mem_nil
    refine ⟨hnone _, ⟨htag _ (by decide), rfl, rfl⟩, hnone _,
      ⟨htag _ (by decide), _, rfl, rfl, ?_⟩, ?_, ⟨htag _ (by decide), rfl, rfl⟩, trivial⟩
    · refine ⟨hnone _, ⟨rfl, htag _ (by decide), rfl, hnone _,
        ⟨htag _ (by decide), _, rfl, rfl, ?_⟩, ?_,
        ⟨htag _ (by decide), ⟨by decide, by decide⟩, rfl⟩, trivial⟩, ?_,
        ⟨rfl, htag _ (by decide), rfl, trivial⟩, trivial⟩
      · exact ⟨hnone _, ⟨rfl, htag _ (by decide), rfl, hnone _,
          ⟨htag _ (by decide), ⟨by decide, by decide⟩, rfl⟩, trivial⟩, trivial⟩
      · decide
      · decide
    · decide
  trailerFields := by
    intro f hf
    rw [List.mem_singleton.1 hf]
    exact ⟨.inl rfl, rfl⟩
  short := by
    decide +kernel

theorem decodeAll_encode_sampleOrder :
    sampleOrder.encode = .ok sampleOrder.render ∧
      decodeAll Dictionary.usual sampleOrder.render = [.ok sampleOrder.received] := by
  have hencode : sampleOrder.encode = .ok sampleOrder.render := rfl
  exact ⟨hencode, decodeAll_encode Dictionary.usual sampleOrder _ hencode inForm_sampleOrder⟩

end Message

end FixEngine
