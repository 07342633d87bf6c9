import FixEngine.Proofs.Wire.Checksum
import FixEngine.Proofs.Wire.Segment
import FixEngine.Proofs.Wire.Writing

/-!
# Frames

A frame is a run of records with values that may stand on the wire, from one that
begins a message to one that ends it.  Its written form hands over exactly one message
or fault, whatever its values are, and even where a tag is zero, which the encoder
writes and no reader takes for a tag.  What the encoder writes is the written form of a
frame.
-/

namespace FixEngine

namespace Record

variable {r : Record}

/-- A record under the tag zero is refused. -/
theorem parse_toBytes_of_zero (h : r.tag = 0) : parse r.toBytes = .error (.invalidTag "0") := by
  have hparse : Tag.parse? (Numeral.ofNat (0 : Tag).toNat) = none := by decide
  have htext : Utf8.decodeLossy (Numeral.ofNat (0 : Tag).toNat) = "0" := by decide
  simp only [parse, trimmed_toBytes, takeWhile_head, dropWhile_head, h, hparse, htext]

/-- A record in its written form neither begins nor ends a message unless its tag does. -/
theorem isInner_toBytes (hvalue : Bytes.IsWritable r.value)
    (htags : r.tag ≠ Tag.beginString ∧ r.tag ≠ Tag.checkSum) : IsInner r.toBytes := by
  by_cases hzero : r.tag = 0
  · have hnone : tag? r.toBytes = none := by
      rw [tag?, parse_toBytes_of_zero hzero]
      rfl
    rw [IsInner, hnone]
    exact ⟨(Option.some_ne_none _).symm, (Option.some_ne_none _).symm⟩
  · rw [IsInner, tag?_of_parse (parse_toBytes ⟨hzero, hvalue⟩)]
    simpa using htags

end Record

namespace MessageDraft

variable {d : Dictionary} {draft next last : MessageDraft}

/-! ### Records without their bytes -/

/-- Adds records one after another, without their bytes. -/
def addAll (d : Dictionary) (draft : MessageDraft) (records : List Record) :
    Except DecodingFault MessageDraft :=
  records.foldlM (fun draft r => draft.addRecord d r) draft

@[simp]
theorem addAll_nil (d : Dictionary) (draft : MessageDraft) : draft.addAll d [] = .ok draft := rfl

theorem addAll_cons {r : Record} {rest : List Record} (hr : draft.addRecord d r = .ok next)
    (hrest : next.addAll d rest = .ok last) : draft.addAll d (r :: rest) = .ok last :=
  foldlM_cons_eq_ok_iff.2 ⟨next, hr, hrest⟩

theorem addAll_append {left right : List Record} (hleft : draft.addAll d left = .ok next)
    (hright : next.addAll d right = .ok last) : draft.addAll d (left ++ right) = .ok last :=
  foldlM_append_eq_ok_iff.2 ⟨next, hleft, hright⟩

/-- A record is added in the same way whatever the sum is. -/
theorem addRecord_withSum (draft : MessageDraft) (r : Record) (sum : UInt8) :
    ({ draft with sum } : MessageDraft).addRecord d r =
      (draft.addRecord d r).map fun next => { next with sum } := by
  rw [addRecord, addRecord]
  cases Slot.ofTag? r.tag with
  | some slot =>
    dsimp only
    cases draft.header.fill d slot r.value with
    | ok header => rfl
    | error fault => rfl
  | none =>
    dsimp only
    split
    · cases BodyDraft.readField d r with
      | ok f => rfl
      | error fault => rfl
    · split
      · cases draft.body.close with
        | error fault => rfl
        | ok entries =>
          cases BodyDraft.readField d r with
          | ok f => rfl
          | error fault => rfl
      · cases draft.body.place d r with
        | ok body => rfl
        | error fault => rfl

/-! ### Records as they are read back -/

/-- Adds a record as it is read back from its written form: zero is no tag. -/
def takeUp (d : Dictionary) (draft : MessageDraft) (r : Record) :
    Except DecodingFault MessageDraft :=
  if r.tag = 0 then .error (.invalidTag "0") else draft.addRecord d r

def takeUpAll (d : Dictionary) (draft : MessageDraft) (records : List Record) :
    Except DecodingFault MessageDraft :=
  records.foldlM (fun draft r => draft.takeUp d r) draft

@[simp]
theorem takeUpAll_nil (d : Dictionary) (draft : MessageDraft) :
    draft.takeUpAll d [] = .ok draft := rfl

theorem takeUpAll_cons (d : Dictionary) (draft : MessageDraft) (r : Record) (rest : List Record) :
    draft.takeUpAll d (r :: rest) = draft.takeUp d r >>= fun next => next.takeUpAll d rest := rfl

/-- Records under tags that are read are taken up as they are. -/
theorem takeUpAll_eq_addAll {records : List Record} (h : ∀ r ∈ records, r.tag ≠ 0)
    (draft : MessageDraft) : draft.takeUpAll d records = draft.addAll d records := by
  induction records generalizing draft with
  | nil => rfl
  | cons r rest ih =>
    rw [List.forall_mem_cons] at h
    obtain ⟨hr, hrest⟩ := h
    have hadd : draft.addAll d (r :: rest) =
        draft.addRecord d r >>= fun next => next.addAll d rest := rfl
    rw [takeUpAll_cons, hadd, takeUp, if_neg hr]
    exact congrArg (draft.addRecord d r >>= ·) (funext (ih hrest))

end MessageDraft

namespace Assembler

variable {d : Dictionary}

/-- A record inside a message is taken up with its bytes, or the message is dropped. -/
theorem step_inner {r : Record} (hvalue : Bytes.IsWritable r.value)
    (htags : r.tag ≠ Tag.beginString ∧ r.tag ≠ Tag.checkSum) (draft : MessageDraft) (sum : UInt8) :
    (assembling { draft with sum }).step d r.toBytes =
      match draft.takeUp d r with
      | .ok next => (assembling { next with sum := Checksum.extend sum r.toBytes }, none)
      | .error fault => (skipping, some (.error fault)) := by
  by_cases hzero : r.tag = 0
  · rw [MessageDraft.takeUp, if_pos hzero]
    simp only [step, Record.parse_toBytes_of_zero hzero]
  · have hsum := draft.addRecord_withSum (d := d) r (Checksum.extend sum r.toBytes)
    rw [MessageDraft.takeUp, if_neg hzero]
    cases hnext : draft.addRecord d r with
    | ok next =>
      rw [hnext] at hsum
      simp only [step, Record.parse_toBytes ⟨hzero, hvalue⟩, if_neg htags.1, if_neg htags.2,
        MessageDraft.add, Record.addTo_toBytes, hsum, Except.map]
    | error fault =>
      rw [hnext] at hsum
      simp only [step, Record.parse_toBytes ⟨hzero, hvalue⟩, if_neg htags.1, if_neg htags.2,
        MessageDraft.add, Record.addTo_toBytes, hsum, Except.map]

/-- Records up to one that ends a message hand over one message or fault: what they fill,
or why the first of them that does not fit is refused. -/
theorem run_records {records : List Record} {final : Record}
    (hvalues : ∀ r ∈ records, Bytes.IsWritable r.value)
    (htags : ∀ r ∈ records, r.tag ≠ Tag.beginString ∧ r.tag ≠ Tag.checkSum)
    (hfinal : final.IsWritable) (hend : final.tag = Tag.checkSum) (draft : MessageDraft)
    (sum : UInt8) :
    (run d (assembling { draft with sum }) (records.map Record.toBytes ++ [final.toBytes])).2 =
      [do
        let last ← draft.takeUpAll d records
        ({ last with sum := Checksum.extend sum (Record.render records) } : MessageDraft).finish
          final.value] := by
  have hparse := Record.parse_toBytes hfinal
  induction records generalizing draft sum with
  | nil =>
    rw [List.map_nil, List.nil_append, run, step_assembling_end _ hparse hend]
    rfl
  | cons r records ih =>
    rw [List.forall_mem_cons] at hvalues htags
    obtain ⟨hr, hrecords⟩ := hvalues
    obtain ⟨hinner, hrest⟩ := htags
    rw [List.map_cons, List.cons_append, run, step_inner hr hinner, MessageDraft.takeUpAll_cons]
    cases hnext : draft.takeUp d r with
    | ok next =>
      have hrun := ih hrecords hrest next (Checksum.extend sum r.toBytes)
      rw [Record.render_cons, Checksum.extend_append]
      exact hrun
    | error fault =>
      have hskipped : ∀ raw ∈ records.map Record.toBytes, Record.IsInner raw := by
        intro raw hraw
        obtain ⟨r', hr', rfl⟩ := List.mem_map.1 hraw
        exact Record.isInner_toBytes (hrecords r' hr') (hrest r' hr')
      have hlast : Record.tag? final.toBytes = some Tag.checkSum := by
        rw [Record.tag?_of_parse hparse, hend]
      dsimp only
      rw [run_eq, (trace_skipping hskipped hlast).2]
      rfl

end Assembler

/-! ### Frames -/

/-- The records of one message with values that may stand on the wire. -/
structure Frame where
  /-- The value of the record that begins the message. -/
  version : Bytes
  inner : List Record
  /-- The value of the record that ends the message. -/
  declared : Bytes
  version_isWritable : Bytes.IsWritable version
  inner_isWritable : ∀ r ∈ inner, Bytes.IsWritable r.value
  inner_tags : ∀ r ∈ inner, r.tag ≠ Tag.beginString ∧ r.tag ≠ Tag.checkSum
  declared_isWritable : Bytes.IsWritable declared

namespace Frame

variable {d : Dictionary}

/-- The records that the checksum is over. -/
def summed (f : Frame) : List Record := ⟨Tag.beginString, f.version⟩ :: f.inner

def records (f : Frame) : List Record := f.summed ++ [⟨Tag.checkSum, f.declared⟩]

/-- The checksum of the bytes in front of the one that is declared. -/
def sum (f : Frame) : UInt8 := Checksum.ofBytes (Record.render f.summed)

/-- What a frame hands over: what its records fill, or why the first of them that does not
fit is refused. -/
def delivery (d : Dictionary) (f : Frame) : Delivery := do
  match Utf8.decode? f.version with
  | none => throw (.invalidValue Tag.beginString .notUtf8)
  | some text =>
    let draft := MessageDraft.start text (Record.mk Tag.beginString f.version).toBytes
    let last ← draft.takeUpAll d f.inner
    ({ last with sum := f.sum } : MessageDraft).finish f.declared

theorem isWritable_first (f : Frame) : Record.IsWritable ⟨Tag.beginString, f.version⟩ :=
  ⟨show Tag.beginString ≠ 0 by decide, f.version_isWritable⟩

theorem isWritable_last (f : Frame) : Record.IsWritable ⟨Tag.checkSum, f.declared⟩ :=
  ⟨show Tag.checkSum ≠ 0 by decide, f.declared_isWritable⟩

theorem isWritable_records (f : Frame) : ∀ r ∈ f.records, Bytes.IsWritable r.value := by
  rw [records, summed, List.forall_mem_append, List.forall_mem_cons, List.forall_mem_singleton]
  exact ⟨⟨f.version_isWritable, f.inner_isWritable⟩, f.declared_isWritable⟩

/-- The written form of a frame hands over one message or fault. -/
theorem decodeAll_render (d : Dictionary) (f : Frame) :
    Message.decodeAll d (Record.render f.records) = [f.delivery d] := by
  let first : Record := ⟨Tag.beginString, f.version⟩
  let last : Record := ⟨Tag.checkSum, f.declared⟩
  have hparse := Record.parse_toBytes f.isWritable_first
  have hcut : Record.cut (Record.render f.records) =
      first.toBytes :: (f.inner.map Record.toBytes ++ [last.toBytes]) := by
    rw [Record.cut_render_of_soh_not_mem fun r hr => (f.isWritable_records r hr).soh_not_mem,
      records, summed, List.map_append, List.map_cons]
    rfl
  have htext : Record.text? first.toBytes = Utf8.decode? f.version := Record.text?_of_parse hparse
  rw [Message.decodeAll, Assembler.runBytes, hcut, Assembler.run, delivery]
  cases hversion : Utf8.decode? f.version with
  | none =>
    rw [hversion] at htext
    have hinner : ∀ raw ∈ f.inner.map Record.toBytes, Record.IsInner raw := by
      intro raw hraw
      obtain ⟨r, hr, rfl⟩ := List.mem_map.1 hraw
      exact Record.isInner_toBytes (f.inner_isWritable r hr) (f.inner_tags r hr)
    have hlast := Record.tag?_of_parse (Record.parse_toBytes f.isWritable_last)
    rw [Assembler.step_begin_of_notUtf8 (Record.tag?_of_parse hparse) htext]
    dsimp only
    rw [Assembler.run_eq, (Assembler.trace_skipping hinner hlast).2]
    rfl
  | some text =>
    rw [hversion] at htext
    let draft := MessageDraft.start text first.toBytes
    have hsum : Checksum.extend draft.sum (Record.render f.inner) = f.sum := by
      have hstart : draft.sum = Checksum.extend 0 first.toBytes := Record.addTo_toBytes 0 first
      rw [hstart, ← Checksum.extend_append, ← Record.render_cons]
      rfl
    have hrun := Assembler.run_records (d := d) f.inner_isWritable f.inner_tags
      f.isWritable_last rfl draft draft.sum
    rw [hsum] at hrun
    rw [Assembler.step_begin (Record.tag?_of_parse hparse) htext]
    exact hrun

/-- A message comes out only under the checksum of its bytes. -/
theorem parse?_declared_of_delivery {f : Frame} {m : Message} (h : f.delivery d = .ok m) :
    Checksum.parse? f.declared = some f.sum := by
  rw [delivery] at h
  cases hversion : Utf8.decode? f.version with
  | none =>
    rw [hversion] at h
    contradiction
  | some text =>
    rw [hversion] at h
    obtain ⟨last, -, hfinish⟩ := bind_eq_ok_iff.1 h
    obtain ⟨entries, -, hdeclared, -⟩ := MessageDraft.finish_eq_ok_iff.1 hfinish
    exact hdeclared

end Frame

namespace Message

variable {m : Message} {bytes : Bytes}

/-- The records between the version and the checksum do not frame the message. -/
theorem tags_innerRecords (hcheck : m.check = .ok ()) :
    ∀ r ∈ m.innerRecords, r.tag ≠ Tag.beginString ∧ r.tag ≠ Tag.checkSum := by
  obtain ⟨-, hfields⟩ := check_eq_ok_iff.1 hcheck
  have hlength : Tag.bodyLength ≠ Tag.beginString ∧ Tag.bodyLength ≠ Tag.checkSum := by decide
  rw [innerRecords, List.forall_mem_cons, records, List.forall_mem_append]
  refine ⟨hlength, ?_, ?_⟩
  · intro r hr
    obtain ⟨slot, htag⟩ := Header.exists_slot hr
    rw [htag]
    exact slot.tag_ne.2
  · intro r hr
    obtain ⟨f, hf, rfl⟩ := List.mem_map.1 hr
    obtain ⟨hbegin, hend, -⟩ :=
      Tag.checkFree_eq_ok_iff.1 (Field.checkFree_of_check (hfields f hf))
    exact ⟨hbegin, hend⟩

/-- A tag is zero only if a field outside the slots has it. -/
theorem exists_freeField_of_zero {r : Record} (hr : r ∈ m.innerRecords) (hzero : r.tag = 0) :
    ∃ f ∈ m.freeFields, f.tag = 0 := by
  rw [innerRecords, List.mem_cons, records, List.mem_append] at hr
  rcases hr with rfl | hslot | hfree
  · exact absurd hzero (show Tag.bodyLength ≠ 0 by decide)
  · obtain ⟨slot, htag⟩ := Header.exists_slot hslot
    exact absurd (htag ▸ hzero) slot.tag_ne.1
  · obtain ⟨f, hf, rfl⟩ := List.mem_map.1 hfree
    exact ⟨f, hf, hzero⟩

/-- The frame that a message is written as. -/
def frame (hcheck : m.check = .ok ()) : Frame where
  version := m.firstRecord.value
  inner := m.innerRecords
  declared := m.lastRecord.value
  version_isWritable := (Header.isWritable_of_check (check_eq_ok_iff.1 hcheck).1).2.1.value
  inner_isWritable := by
    rw [innerRecords, List.forall_mem_cons]
    exact ⟨Numeral.isWritable_ofNat _, isWritable_records hcheck⟩
  inner_tags := tags_innerRecords hcheck
  declared_isWritable := Numeral.isWritable_padded 3 _

theorem render_frame (hcheck : m.check = .ok ()) :
    Record.render (frame hcheck).records = m.render :=
  m.render_eq.symm

/-- A message is written under the checksum of its bytes. -/
theorem sum_frame (hcheck : m.check = .ok ()) :
    (frame hcheck).sum = Checksum.ofBytes m.renderUnsummed := by
  rw [renderUnsummed_eq, ← Record.render_cons]
  rfl

theorem decode?_frame (hcheck : m.check = .ok ()) :
    Utf8.decode? (frame hcheck).version = some m.header.beginString :=
  Utf8.decode?_encode m.header.beginString

/-- What a message that passes its checks is read back as comes from its records and from
the groups at its end. -/
theorem delivery_frame (d : Dictionary) (hcheck : m.check = .ok ()) :
    (frame hcheck).delivery d = (do
      let draft := MessageDraft.start m.header.beginString m.firstRecord.toBytes
      let last ← draft.takeUpAll d m.innerRecords
      ({ last with sum := Checksum.ofBytes m.renderUnsummed } : MessageDraft).finish
        m.lastRecord.value) := by
  rw [Frame.delivery, decode?_frame, sum_frame]
  rfl

end Message

end FixEngine
