import FixEngine.Proofs.Wire.Apart

/-!
# Sending on what was read

A message that was read can be written again, as long as it names its type and both
parties, for all that was read may stand on the wire.  It comes back as it was, unless a
trailer record parted its body where the encoder, which writes the trailer at the end,
does not.
-/

namespace FixEngine

/-! ### The records of a message -/

/-- The well-formed records, in order of arrival. -/
def Record.allOf (records : List Bytes) : List Record :=
  records.filterMap fun raw => (parse raw).toOption

theorem Record.allOf_cons {raw : Bytes} {r : Record} (hparse : parse raw = .ok r)
    (rest : List Bytes) : allOf (raw :: rest) = r :: allOf rest := by
  simp only [allOf, List.filterMap_cons, hparse, Except.toOption]

theorem Record.mem_allOf_iff {records : List Bytes} {r : Record} :
    r ∈ allOf records ↔ ∃ raw ∈ records, parse raw = .ok r := by
  have hok (raw : Bytes) : (parse raw).toOption = some r ↔ parse raw = .ok r := by
    cases parse raw with
    | ok r' => simp [Except.toOption]
    | error fault => simp [Except.toOption]
  simp only [allOf, List.mem_filterMap, hok]

namespace Assembler

variable {d : Dictionary} {records inner : List Bytes} {k : Nat} {m : Message}

/-- A message in progress that is not dropped is filled by the well-formed records, which
are all of them. -/
theorem addAll_of_after {draft last : MessageDraft} (hinner : ∀ raw ∈ inner, Record.IsInner raw)
    (h : after d (assembling draft) inner = assembling last) (sum : UInt8) :
    ({ draft with sum } : MessageDraft).addAll d (Record.allOf inner) = .ok { last with sum } := by
  induction inner generalizing draft with
  | nil =>
    cases h
    rfl
  | cons raw rest ih =>
    rw [List.forall_mem_cons] at hinner
    obtain ⟨hraw, hrest⟩ := hinner
    rw [after_cons] at h
    rcases step_assembling (d := d) draft hraw with ⟨r, next, hparse, hadd, hstep⟩ |
      ⟨-, fault, hstep⟩
    · rw [hstep] at h
      let summed : MessageDraft := { draft with sum := Record.addTo draft.sum raw }
      have hsame : summed.addRecord d r = .ok next := hadd
      have hsum := summed.addRecord_withSum (d := d) r sum
      rw [hsame] at hsum
      rw [Record.allOf_cons hparse]
      exact MessageDraft.addAll_cons hsum (ih hrest h)
    · rw [hstep, after_skipping hrest] at h
      contradiction

/-- A message that is handed over is what the records of its span fill. -/
theorem exists_addAll_of_emits (h : Emits d records k m) (s : Span records k)
    (hs : s.IsSealed d) :
    ∃ text draft, Record.text? s.first = some text ∧
      (MessageDraft.start text s.first).addAll d (Record.allOf s.inner) = .ok draft ∧
      draft.body.close = .ok m.body ∧ m.header = draft.header ∧
      m.trailer.fields = draft.trailerFields := by
  obtain ⟨text, htext⟩ := Option.isSome_iff_exists.1 hs.text
  rw [Emits, getElem?_trace, s.getElem?_eq, after_take s hs.begins htext, Option.map_some] at h
  obtain ⟨draft, r, hafter, -, -, hfinish⟩ := step_emits (Option.some.inj h)
  obtain ⟨entries, hclose, -, rfl⟩ := MessageDraft.finish_eq_ok_iff.1 hfinish
  have hadd := addAll_of_after s.isInner hafter (MessageDraft.start text s.first).sum
  exact ⟨text, _, htext, hadd, hclose, rfl, rfl⟩

end Assembler

/-! ### Headers that were read -/

/-- The text, if there is one, may stand on the wire. -/
def IsSendable (text? : Option String) : Prop :=
  ∀ text, text? = some text → Bytes.IsWritable (Utf8.encode text)

theorem isSendable_some {text : String} (h : Bytes.IsWritable (Utf8.encode text)) :
    IsSendable (some text) := by
  rintro text' ⟨⟩
  exact h

/-- The parts of a header were read from bytes that may stand on the wire. -/
structure Header.IsRead (d : Dictionary) (h : Header) : Prop where
  beginString : Bytes.IsWritable (Utf8.encode h.beginString)
  msgType : ∀ t, h.msgType = some t →
    MsgType.ofText t.text = t ∧ Bytes.IsWritable (Utf8.encode t.text)
  senderCompId : h.senderCompId ≠ "" → Bytes.IsWritable (Utf8.encode h.senderCompId)
  targetCompId : h.targetCompId ≠ "" → Bytes.IsWritable (Utf8.encode h.targetCompId)
  partyDetails : ∀ detail ∈ h.partyDetails, IsSendable detail.2
  sendingTime : ∀ t, h.sendingTime = some t →
    ∃ bytes, d.read Tag.sendingTime bytes = .ok (.timestamp t)
  fields : ∀ f ∈ h.fields, f.tag.checkFree = .ok () ∧ f.tag.isHeader = true ∧ f.IsRead d

namespace Header

variable {d : Dictionary} {h h' : Header} {bytes : Bytes}

theorem isRead_start {text : String} (htext : Bytes.IsWritable (Utf8.encode text)) :
    IsRead d { beginString := text } where
  beginString := htext
  msgType := by simp
  senderCompId := by simp
  targetCompId := by simp
  partyDetails := by simp [partyDetails, IsSendable]
  sendingTime := by simp
  fields := by simp

theorem forall_partyDetails_iff {P : Option String → Prop} :
    (∀ detail ∈ h.partyDetails, P detail.2) ↔
      P h.senderSubId ∧ P h.targetSubId ∧ P h.senderLocationId ∧ P h.targetLocationId := by
  simp [partyDetails]

/-- A slot is filled with what was read. -/
theorem IsRead.fill (hread : h.IsRead d) {slot : Slot} (hbytes : Bytes.IsWritable bytes)
    (hfill : h.fill d slot bytes = .ok h') : h'.IsRead d := by
  obtain ⟨hsenderSub, htargetSub, hsenderLocation, htargetLocation⟩ :=
    forall_partyDetails_iff.1 hread.partyDetails
  have htext {text : String} (h : Value.readText bytes = .ok text) :
      Bytes.IsWritable (Utf8.encode text) := Value.isWritable_of_readText h hbytes
  cases slot with
  | bodyLength | msgSeqNum =>
    obtain ⟨n, -, hh⟩ := bind_eq_ok_iff.1 hfill
    cases hh
    exact { hread with }
  | msgType =>
    obtain ⟨text, hreading, hh⟩ := bind_eq_ok_iff.1 hfill
    cases hh
    refine { hread with msgType := ?_ }
    rintro t ⟨⟩
    rw [MsgType.text_ofText]
    exact ⟨rfl, htext hreading⟩
  | senderCompId =>
    obtain ⟨text, hreading, hh⟩ := bind_eq_ok_iff.1 hfill
    cases hh
    exact { hread with senderCompId := fun _ => htext hreading }
  | targetCompId =>
    obtain ⟨text, hreading, hh⟩ := bind_eq_ok_iff.1 hfill
    cases hh
    exact { hread with targetCompId := fun _ => htext hreading }
  | senderSubId =>
    obtain ⟨text, hreading, hh⟩ := bind_eq_ok_iff.1 hfill
    cases hh
    have hdetail := isSendable_some (htext hreading)
    exact { hread with
      partyDetails :=
        forall_partyDetails_iff.2 ⟨hdetail, htargetSub, hsenderLocation, htargetLocation⟩ }
  | targetSubId =>
    obtain ⟨text, hreading, hh⟩ := bind_eq_ok_iff.1 hfill
    cases hh
    have hdetail := isSendable_some (htext hreading)
    exact { hread with
      partyDetails :=
        forall_partyDetails_iff.2 ⟨hsenderSub, hdetail, hsenderLocation, htargetLocation⟩ }
  | senderLocationId =>
    obtain ⟨text, hreading, hh⟩ := bind_eq_ok_iff.1 hfill
    cases hh
    have hdetail := isSendable_some (htext hreading)
    exact { hread with
      partyDetails :=
        forall_partyDetails_iff.2 ⟨hsenderSub, htargetSub, hdetail, htargetLocation⟩ }
  | targetLocationId =>
    obtain ⟨text, hreading, hh⟩ := bind_eq_ok_iff.1 hfill
    cases hh
    have hdetail := isSendable_some (htext hreading)
    exact { hread with
      partyDetails :=
        forall_partyDetails_iff.2 ⟨hsenderSub, htargetSub, hsenderLocation, hdetail⟩ }
  | sendingTime =>
    obtain ⟨value, hvalue, hh⟩ := bind_eq_ok_iff.1 hfill
    cases hh
    refine { hread with sendingTime := ?_ }
    intro t ht
    cases value with
    | timestamp t' =>
      cases ht
      exact ⟨bytes, hvalue⟩
    | _ => contradiction

/-- The header names the type of its message and both parties. -/
structure IsAddressed (h : Header) : Prop where
  msgType : h.msgType.isSome
  senderCompId : h.senderCompId ≠ ""
  targetCompId : h.targetCompId ≠ ""

/-- A header that was read and that is addressed passes the check of the encoder. -/
theorem IsRead.check (hread : h.IsRead d) (haddressed : h.IsAddressed) : h.check = .ok () := by
  obtain ⟨t, ht⟩ := Option.isSome_iff_exists.1 haddressed.msgType
  rw [Header.check, ht]
  simp only [check_bind_eq_ok_iff, forM_eq_ok_iff, requireText_eq_ok_iff]
  refine ⟨hread.beginString, (hread.msgType t ht).2, hread.senderCompId haddressed.senderCompId,
    hread.targetCompId haddressed.targetCompId, ?_⟩
  rintro ⟨tag, text?⟩ hdetail
  cases text? with
  | none => rfl
  | some text => exact checkText_eq_ok_iff.2 (hread.partyDetails _ hdetail text rfl)

end Header

/-! ### Messages that were read -/

/-- The parts of a message in progress were read from bytes that may stand on the wire. -/
structure MessageDraft.IsRead (d : Dictionary) (draft : MessageDraft) : Prop where
  header : draft.header.IsRead d
  body : ∀ f ∈ draft.body.fields, f.tag.IsBody ∧ Bytes.IsWritable f.value.toBytes
  trailer : ∀ f ∈ draft.trailerFields,
    (f.tag = Tag.signature ∨ f.tag = Tag.signatureLength) ∧ f.IsRead d

theorem Tag.eq_of_isTrailer {tag : Tag} (h : tag.isTrailer = true) :
    tag = checkSum ∨ tag = signature ∨ tag = signatureLength := by
  simpa [isTrailer, checkSum, signature, signatureLength] using h

namespace MessageDraft

variable {d : Dictionary} {draft next last : MessageDraft} {r : Record} {records : List Record}

theorem isRead_start {text : String} {raw : Bytes}
    (htext : Bytes.IsWritable (Utf8.encode text)) : (start text raw).IsRead d where
  header := Header.isRead_start htext
  body := by simp [start, Entry.fieldsOf]
  trailer := by simp [start]

/-- The header of a message in progress takes in what was read. -/
theorem Adds.isRead_header (hadds : draft.Adds d r next) (hread : draft.header.IsRead d)
    (hr : r.IsWritable) (hbegin : r.tag ≠ Tag.beginString) (hend : r.tag ≠ Tag.checkSum) :
    next.header.IsRead d := by
  cases hadds with
  | slot _ hfill => exact hread.fill hr.value hfill
  | @header f hslot hheader hreading =>
    have htag := BodyDraft.tag_of_readField hreading
    have hf : f.tag.checkFree = .ok () ∧ f.tag.isHeader = true ∧ f.IsRead d := by
      rw [htag]
      exact ⟨Tag.checkFree_eq_ok_iff.2 ⟨hbegin, hend, hslot⟩, hheader,
        Field.isRead_of_readField hreading hr.value⟩
    have hfields := List.forall_mem_append.2 ⟨hread.fields, List.forall_mem_singleton.2 hf⟩
    exact { hread with fields := hfields }
  | trailer | body => exact hread

/-- A record that is added is read like those before it. -/
theorem IsRead.addRecord (hd : d.IsRegistered) (hread : draft.IsRead d)
    (hsound : draft.body.IsSound) (hr : r.IsWritable) (hbegin : r.tag ≠ Tag.beginString)
    (hend : r.tag ≠ Tag.checkSum) (hadd : draft.addRecord d r = .ok next) : next.IsRead d := by
  have hnext := (adds_of_addRecord hadd).isRead_header hread.header hr hbegin hend
  cases adds_of_addRecord hadd with
  | slot | header => exact { hread with header := hnext }
  | @trailer f entries hheader htrailer hclose hreading =>
    have htag := BodyDraft.tag_of_readField hreading
    have hf : (f.tag = Tag.signature ∨ f.tag = Tag.signatureLength) ∧ f.IsRead d := by
      rw [htag]
      exact ⟨(Tag.eq_of_isTrailer htrailer).resolve_left hend,
        Field.isRead_of_readField hreading hr.value⟩
    have hsame : BodyDraft.fields ⟨[], entries⟩ = draft.body.fields :=
      (BodyDraft.closesTo_of_close hclose).fields_eq
    refine ⟨hnext, ?_, ?_⟩
    · dsimp only
      rw [hsame]
      exact hread.body
    · exact List.forall_mem_append.2 ⟨hread.trailer, List.forall_mem_singleton.2 hf⟩
  | @body body hheader htrailer hplace =>
    obtain ⟨f, hf⟩ := BodyDraft.exists_adds_of_place hd hsound hplace
    have htag : f.tag.IsBody := by
      rw [hf.tag]
      exact ⟨hr.tag_ne_zero, hheader, htrailer⟩
    refine { hread with body := ?_ }
    dsimp only
    rw [hf.fields]
    exact List.forall_mem_append.2
      ⟨hread.body, List.forall_mem_singleton.2 ⟨htag, hf.isWritable hr.value⟩⟩

theorem IsRead.addAll (hd : d.IsRegistered) (hread : draft.IsRead d)
    (hsound : draft.body.IsSound) (hrecords : ∀ r ∈ records,
      r.IsWritable ∧ r.tag ≠ Tag.beginString ∧ r.tag ≠ Tag.checkSum)
    (hadd : draft.addAll d records = .ok last) : last.IsRead d := by
  induction records generalizing draft with
  | nil =>
    cases hadd
    exact hread
  | cons r rest ih =>
    obtain ⟨next, hr, hrest⟩ := foldlM_cons_eq_ok_iff.1 hadd
    obtain ⟨⟨hwritable, hbegin, hend⟩, hlater⟩ := List.forall_mem_cons.1 hrecords
    have hnext := hread.addRecord hd hsound hwritable hbegin hend hr
    exact ih hnext (isSound_of_addRecord hsound hr).1 hlater hrest

end MessageDraft

/-- The text of a piece that was cut from the wire may stand there again. -/
theorem Record.isWritable_of_text? {bytes raw : Bytes} {text : String} (h : raw ∈ cut bytes)
    (htext : text? raw = some text) : Bytes.IsWritable (Utf8.encode text) := by
  cases hparse : parse raw with
  | error fault =>
    rw [text?, hparse] at htext
    contradiction
  | ok r =>
    rw [text?_of_parse hparse] at htext
    have hvalue := (isWritable_of_mem_cut h hparse).value
    exact Value.isWritable_of_readText (Value.readText_eq_ok_iff.2 htext) hvalue

/-- A tag of the body passes its check. -/
theorem Tag.IsBody.checkFree {tag : Tag} (h : tag.IsBody) : tag.checkFree = .ok () := by
  refine checkFree_eq_ok_iff.2 ⟨?_, ?_, Slot.ofTag?_eq_none h.isHeader⟩
  · rintro rfl
    exact absurd h.isHeader (by decide)
  · rintro rfl
    exact absurd h.isTrailer (by decide)

namespace Span

variable {records : List Bytes} {bytes : Bytes} {k : Nat}

theorem first_mem (s : Span records k) : s.first ∈ records := by
  have h : s.first ∈ s.before ++ s.first :: (s.inner ++ s.last :: s.rest) := by simp
  rwa [← s.split] at h

/-- The records inside a span may stand on the wire and do not frame a message. -/
theorem allOf_inner_spec (s : Span (Record.cut bytes) k) :
    ∀ r ∈ Record.allOf s.inner,
      r.IsWritable ∧ r.tag ≠ Tag.beginString ∧ r.tag ≠ Tag.checkSum := by
  intro r hr
  obtain ⟨raw, hraw, hparse⟩ := Record.mem_allOf_iff.1 hr
  have hcut : raw ∈ Record.cut bytes := by
    rw [s.split]
    simp [hraw]
  obtain ⟨hbegin, hend⟩ := s.isInner raw hraw
  rw [Record.tag?_of_parse hparse, ne_eq, Option.some.injEq] at hbegin hend
  exact ⟨Record.isWritable_of_mem_cut hcut hparse, hbegin, hend⟩

end Span

/-- The parts of a message were read from bytes that may stand on the wire. -/
structure Message.IsRead (d : Dictionary) (m : Message) : Prop where
  header : m.header.IsRead d
  body : ∀ f ∈ Entry.fieldsOf m.body, f.tag.IsBody ∧ Bytes.IsWritable f.value.toBytes
  trailer : ∀ f ∈ m.trailer.fields,
    (f.tag = Tag.signature ∨ f.tag = Tag.signatureLength) ∧ f.IsRead d

/-- The years of a message are written with four digits. -/
def Message.HasFourDigits (m : Message) : Prop :=
  (∀ t, m.header.sendingTime = some t → t.date.HasFourDigits) ∧
    ∀ f ∈ m.freeFields, f.value.HasFourDigits

namespace Message

variable {d : Dictionary} {m : Message} {bytes : Bytes} {k : Nat}

theorem isRead_of_emits (hd : d.IsRegistered)
    (h : Assembler.Emits d (Record.cut bytes) k m) : m.IsRead d := by
  obtain ⟨s, hs⟩ := Assembler.exists_isSealed h
  obtain ⟨text, draft, htext, hadd, hclose, hheader, htrailer⟩ :=
    Assembler.exists_addAll_of_emits h s hs
  have hstart : (MessageDraft.start text s.first).IsRead d :=
    MessageDraft.isRead_start (Record.isWritable_of_text? s.first_mem htext)
  obtain ⟨hsound, -⟩ := Assembler.body_start text s.first
  have hlast := hstart.addAll hd hsound s.allOf_inner_spec hadd
  have hbody := (BodyDraft.closesTo_of_close hclose).fields_eq
  rw [BodyDraft.fields_nil] at hbody
  refine ⟨?_, ?_, ?_⟩
  · rw [hheader]
    exact hlast.header
  · rw [hbody]
    exact hlast.body
  · rw [htrailer]
    exact hlast.trailer

/-- A message that was read and that is addressed passes the checks of the encoder. -/
theorem IsRead.check (hread : m.IsRead d) (haddressed : m.header.IsAddressed) :
    m.check = .ok () := by
  rw [check_eq_ok_iff, freeFields, List.forall_mem_append, List.forall_mem_append]
  refine ⟨hread.header.check haddressed, ⟨?_, ?_⟩, ?_⟩
  · intro f hf
    obtain ⟨hfree, -, hvalue⟩ := hread.header.fields f hf
    exact Field.check_of_isWritable hfree hvalue.isWritable
  · intro f hf
    obtain ⟨htag, hvalue⟩ := hread.body f hf
    exact Field.check_of_isWritable htag.checkFree hvalue
  · intro f hf
    obtain ⟨htag, hvalue⟩ := hread.trailer f hf
    refine Field.check_of_isWritable ?_ hvalue.isWritable
    rcases htag with htag | htag
    · rw [htag]
      rfl
    · rw [htag]
      rfl

/-- The fields of a body that was filled by records fill it again just if the records
keep groups apart. -/
theorem exists_placeAll_iff_of_addAll (hd : d.IsRegistered) {draft last : MessageDraft}
    {records : List Record} (hsound : draft.body.IsSound) (hempty : draft.body = {})
    (hadd : draft.addAll d records = .ok last) (hclose : last.body.close = .ok m.body)
    (hyears : ∀ f ∈ Entry.fieldsOf m.body, f.value.HasFourDigits) :
    (∃ body, BodyDraft.placeAll d {} m.bodyRecords = .ok body ∧ body.close = .ok m.body) ↔
      Nest.KeepsApart d [] [] records := by
  obtain ⟨added, hadded, hagain⟩ := MessageDraft.exists_placeAll_iff_of_addAll hd hsound hadd hclose
  have hbody : Entry.fieldsOf m.body = added := by
    have hsame := (BodyDraft.closesTo_of_close hclose).fields_eq
    rw [BodyDraft.fields_nil, hadded, hempty] at hsame
    exact hsame
  rw [hbody] at hyears
  rw [hempty] at hagain hsound
  rw [bodyRecords, hbody]
  exact hagain hyears hsound (.refl _)

/-- The body of a message fills again from its own records just if the records that it
was read from keep groups apart. -/
theorem exists_placeAll_iff_of_emits (hd : d.IsRegistered)
    (h : Assembler.Emits d (Record.cut bytes) k m)
    (hyears : ∀ f ∈ Entry.fieldsOf m.body, f.value.HasFourDigits)
    (s : Span (Record.cut bytes) k) (hs : s.IsSealed d) :
    (∃ body, BodyDraft.placeAll d {} m.bodyRecords = .ok body ∧ body.close = .ok m.body) ↔
      Nest.KeepsApart d [] [] (Record.allOf s.inner) := by
  obtain ⟨text, draft, -, hadd, hclose, -, -⟩ := Assembler.exists_addAll_of_emits h s hs
  obtain ⟨hsound, -⟩ := Assembler.body_start text s.first
  exact exists_placeAll_iff_of_addAll hd hsound rfl hadd hclose hyears

/-- What the encoder writes keeps groups apart. -/
theorem IsRead.keepsApart_innerRecords (hread : m.IsRead d) :
    Nest.KeepsApart d [] [] m.innerRecords := by
  have hinner : m.innerRecords =
      (Record.ofNat Tag.bodyLength (Record.render m.records).length :: (m.header.slotRecords ++
        (m.header.fields ++ Entry.fieldsOf m.body).map Field.record)) ++
        m.trailer.fields.map Field.record := by
    simp only [innerRecords, records, freeFields, List.map_append, List.cons_append,
      List.append_assoc]
  rw [hinner]
  refine Nest.keepsApart_append ?_ ?_
  · rw [List.forall_mem_cons, List.forall_mem_append]
    refine ⟨.inl rfl, ?_, ?_⟩
    · intro r hr
      obtain ⟨slot, htag⟩ := Header.exists_slot hr
      rw [htag]
      exact .inl (by cases slot <;> rfl)
    · intro r hr
      obtain ⟨f, hf, rfl⟩ := List.mem_map.1 hr
      rcases List.mem_append.1 hf with hheader | hbody
      · exact .inl (hread.header.fields f hheader).2.1
      · exact .inr (hread.body f hbody).1.isTrailer
  · intro r hr
    obtain ⟨f, hf, rfl⟩ := List.mem_map.1 hr
    have htag : f.record.tag = f.tag := rfl
    rw [htag]
    rcases (hread.trailer f hf).1 with htag | htag
    · rw [htag]
      rfl
    · rw [htag]
      rfl

/-- A message that was read is rebuilt if its body fills again. -/
theorem IsRead.rebuilds (hread : m.IsRead d) (hyears : m.HasFourDigits)
    (hbody : ∃ body, BodyDraft.placeAll d {} m.bodyRecords = .ok body ∧ body.close = .ok m.body)
    (hshort : (Record.render m.records).length < 4294967296) : m.Rebuilds d := by
  obtain ⟨htime, hfields⟩ := hyears
  rw [freeFields, List.forall_mem_append, List.forall_mem_append] at hfields
  obtain ⟨⟨hheaderYears, -⟩, htrailerYears⟩ := hfields
  refine ⟨?_, ?_, ?_, ?_, hbody, ?_, hshort⟩
  · exact fun t ht => (hread.header.msgType t ht).1
  · intro t ht
    obtain ⟨bytes', hreading⟩ := hread.header.sendingTime t ht
    have hback : d.read Tag.sendingTime (Value.timestamp t).toBytes = .ok (.timestamp t) :=
      Value.read_toBytes hreading (htime t ht)
    exact hback
  · intro f hf
    obtain ⟨-, hheader, hvalue⟩ := hread.header.fields f hf
    exact ⟨hheader, hvalue.readsBack (hheaderYears f hf)⟩
  · exact fun f hf => (hread.body f hf).1
  · intro f hf
    obtain ⟨htag, hvalue⟩ := hread.trailer f hf
    exact ⟨htag, hvalue.readsBack (htrailerYears f hf)⟩

theorem IsRead.tag_ne_zero (hread : m.IsRead d) : ∀ f ∈ m.freeFields, f.tag ≠ 0 :=
  tag_ne_zero_of_parts (fun f hf => (hread.header.fields f hf).2.1)
    (fun f hf => (hread.body f hf).1) fun f hf => (hread.trailer f hf).1

/-- The message is written, and its written form hands over one message, which differs in
nothing but the length and the checksum. -/
def IsSentOn (d : Dictionary) (m : Message) : Prop :=
  ∃ bytes m', m.encode = .ok bytes ∧ decodeAll d bytes = [.ok m'] ∧
    { m'.header with bodyLength := m.header.bodyLength } = m.header ∧ m'.body = m.body ∧
    m'.trailer.fields = m.trailer.fields

theorem Rebuilds.isSentOn (hcheck : m.check = .ok ()) (h : m.Rebuilds d) : m.IsSentOn d :=
  ⟨m.render, m.received, encode_eq_ok_iff.2 ⟨hcheck, rfl⟩, h.decodeAll_render hcheck, rfl, rfl, rfl⟩

/-- A message whose written form hands over a fault, or a message with another body, is not
sent on. -/
theorem not_isSentOn {delivery : Delivery} (h : decodeAll d m.render = [delivery])
    (hbody : ∀ m', delivery = .ok m' → m'.body ≠ m.body) : ¬ m.IsSentOn d := by
  rintro ⟨bytes, m', hencode, hdecode, -, hsame, -⟩
  obtain ⟨-, rfl⟩ := encode_eq_ok_iff.1 hencode
  rw [h, List.singleton_inj] at hdecode
  exact hbody m' hdecode hsame

/-- A message is only sent on if its body fills again and the length of its content can be
read. -/
theorem IsRead.of_isSentOn (hd : d.IsRegistered) (hread : m.IsRead d)
    (hyears : ∀ f ∈ Entry.fieldsOf m.body, f.value.HasFourDigits) (h : m.IsSentOn d) :
    (∃ body, BodyDraft.placeAll d {} m.bodyRecords = .ok body ∧ body.close = .ok m.body) ∧
      (Record.render m.records).length < 4294967296 := by
  obtain ⟨bytes, m', hencode, hdecode, -, hbody, -⟩ := h
  obtain ⟨hcheck, rfl⟩ := encode_eq_ok_iff.1 hencode
  rw [decodeAll_render d hcheck hread.tag_ne_zero, List.singleton_inj] at hdecode
  obtain ⟨last, hadd, hfinish⟩ := bind_eq_ok_iff.1 hdecode
  obtain ⟨entries, hclose, -, hm'⟩ := MessageDraft.finish_eq_ok_iff.1 hfinish
  obtain ⟨hsound, -⟩ := Assembler.body_start m.header.beginString m.firstRecord.toBytes
  refine ⟨?_, ?_⟩
  · have hsame : last.body.close = .ok m.body := by
      rw [← hbody, hm']
      exact hclose
    exact (exists_placeAll_iff_of_addAll hd hsound rfl hadd hsame hyears).2
      hread.keepsApart_innerRecords
  · obtain ⟨next, hlength, -⟩ := foldlM_cons_eq_ok_iff.1 hadd
    have hisSlot : Slot.ofTag? Tag.bodyLength = some .bodyLength := Slot.ofTag?_tag .bodyLength
    cases MessageDraft.adds_of_addRecord hlength with
    | slot hslot hfill =>
      cases hisSlot.symm.trans hslot
      obtain ⟨u, hlength, -⟩ := bind_eq_ok_iff.1 hfill
      exact Value.lt_of_readUnsigned_ofNat hlength
    | header hslot => cases hisSlot.symm.trans hslot
    | trailer hheader | body hheader => contradiction

/-- A message that was read, with a type and two parties, is written, and its written form
hands over one message or fault.  The message is sent on just if each record of its body that
came first after trailer records belonged to none of the groups that they ended, and its
content has a length that can be read. -/
theorem isSentOn_iff_of_read (d : Dictionary) (bytes : Bytes) (m : Message) (hd : d.IsRegistered)
    (hm : .ok m ∈ decodeAll d bytes) (haddressed : m.header.IsAddressed) :
    m.encode = .ok m.render ∧ (∃ delivery, decodeAll d m.render = [delivery]) ∧
      (m.HasFourDigits → ∀ k, Assembler.Emits d (Record.cut bytes) k m →
        ∀ s : Span (Record.cut bytes) k, s.IsSealed d →
          (m.IsSentOn d ↔ Nest.KeepsApart d [] [] (Record.allOf s.inner) ∧
            (Record.render m.records).length < 4294967296)) := by
  obtain ⟨k, hk⟩ := Assembler.mem_decodeAll_iff.1 hm
  have hread := isRead_of_emits hd hk
  have hcheck := hread.check haddressed
  refine ⟨encode_eq_ok_iff.2 ⟨hcheck, rfl⟩, ⟨_, decodeAll_render d hcheck hread.tag_ne_zero⟩, ?_⟩
  intro hyears k' h s hs
  have hbodyYears : ∀ f ∈ Entry.fieldsOf m.body, f.value.HasFourDigits := by
    intro f hf
    exact hyears.2 f (by simp [freeFields, hf])
  rw [← exists_placeAll_iff_of_emits hd h hbodyYears s hs]
  constructor
  · exact hread.of_isSentOn hd hbodyYears
  · rintro ⟨hbody, hshort⟩
    exact (hread.rebuilds hyears hbody hshort).isSentOn hcheck

/-- An order with numbers and a time that are not spelled as they are written, and with a
trailer record after its group. -/
def sampleWire : Bytes :=
  Record.delimited (["8=FIX.4.4", "35=D", "49=A", "56=B", "34=007", "453=01", "448=X", "93=+1",
    "44=+01.50", "52=20240101-10:00:60", "10=081"].map Utf8.encode)

/-- The records of the order. -/
def sampleSpan : Span (Record.cut sampleWire) 10 where
  before := []
  first := Utf8.encode "8=FIX.4.4\x01"
  inner := (Record.cut sampleWire).tail.take 9
  last := Utf8.encode "10=081\x01"
  rest := []
  split := rfl
  index := rfl
  isInner := by
    unfold Record.IsInner
    decide +kernel

set_option maxRecDepth 10000 in
theorem isSentOn_iff_of_read_sample :
    ∃ m, .ok m ∈ decodeAll .usual sampleWire ∧ m.encode = .ok m.render ∧ m.IsSentOn .usual := by
  obtain ⟨m, hemits, haddressed, hyears, hshort⟩ :
      ∃ m, Assembler.Emits .usual (Record.cut sampleWire) 10 m ∧ m.header.IsAddressed ∧
        m.HasFourDigits ∧ (Record.render m.records).length < 4294967296 := by
    refine ⟨_, rfl, ⟨rfl, by decide, by decide⟩, ⟨?_, by decide +kernel⟩, by decide +kernel⟩
    rintro t ⟨⟩
    decide
  have hd : Dictionary.usual.IsRegistered := Dictionary.isRegistered_standard .fix44
  have hm : .ok m ∈ decodeAll .usual sampleWire := Assembler.mem_decodeAll_iff.2 ⟨10, hemits⟩
  have hs : sampleSpan.IsSealed .usual := Assembler.isSealed_of_emits hemits sampleSpan rfl rfl
  have hapart : Nest.KeepsApart .usual [] [] (Record.allOf sampleSpan.inner) := by decide +kernel
  obtain ⟨hencode, -, hagain⟩ := isSentOn_iff_of_read .usual sampleWire m hd hm haddressed
  exact ⟨m, hm, hencode, (hagain hyears 10 hemits sampleSpan hs).2 ⟨hapart, hshort⟩⟩

set_option maxRecDepth 10000 in
/-- A message is not sent on if a group that a trailer record ended takes up a field again,
if its dictionary has a group under the tag of another one, or if its year has a sign. -/
theorem exists_not_isSentOn :
    (∃ bytes m, decodeAll .usual bytes = [.ok m] ∧ m.header.IsAddressed ∧
      m.HasFourDigits ∧ ¬ m.IsSentOn .usual) ∧
    (∃ d bytes m, decodeAll d bytes = [.ok m] ∧ m.header.IsAddressed ∧
      m.HasFourDigits ∧ ¬ m.IsSentOn d) ∧
    (∃ bytes m, decodeAll .usual bytes = [.ok m] ∧ m.header.IsAddressed ∧
      ¬ m.HasFourDigits ∧ ¬ m.IsSentOn .usual) := by
  let wire (records : List String) : Bytes := Record.delimited (records.map Utf8.encode)
  let misplaced : Dictionary :=
    { Dictionary.usual with
      layouts := Table.empty.insert 453 ⟨454, "NoSecurityAltID", 448, [448], []⟩ }
  refine ⟨?regrouped, ?misplaced, ?signed⟩
  case regrouped =>
    obtain ⟨m, hm, haddressed, hyears, m', hagain, hbody⟩ :
        ∃ m, decodeAll .usual (wire ["8=FIX.4.4", "35=D", "49=A", "56=B", "453=1", "448=X", "93=1",
            "452=3", "10=010"]) = [.ok m] ∧ m.header.IsAddressed ∧ m.HasFourDigits ∧
          ∃ m', decodeAll .usual m.render = [.ok m'] ∧ m'.body.length ≠ m.body.length :=
      ⟨_, rfl, ⟨rfl, by decide, by decide⟩, ⟨by rintro t ⟨⟩, by decide +kernel⟩, _, rfl, by decide⟩
    refine ⟨_, m, hm, haddressed, hyears, not_isSentOn hagain ?_⟩
    rintro m' ⟨⟩ hsame
    exact hbody (congrArg List.length hsame)
  case misplaced =>
    obtain ⟨m, hm, haddressed, hyears, m', hagain, hbody⟩ :
        ∃ m, decodeAll misplaced (wire ["8=FIX.4.4", "35=D", "49=A", "56=B", "453=1", "448=X",
            "10=035"]) = [.ok m] ∧ m.header.IsAddressed ∧ m.HasFourDigits ∧
          ∃ m', decodeAll misplaced m.render = [.ok m'] ∧ m'.body.length ≠ m.body.length :=
      ⟨_, rfl, ⟨rfl, by decide, by decide⟩, ⟨by rintro t ⟨⟩, by decide +kernel⟩, _, rfl, by decide⟩
    refine ⟨misplaced, _, m, hm, haddressed, hyears, not_isSentOn hagain ?_⟩
    rintro m' ⟨⟩ hsame
    exact hbody (congrArg List.length hsame)
  case signed =>
    obtain ⟨m, hm, haddressed, fault, hagain, t, htime, hyear⟩ :
        ∃ m, decodeAll .usual (wire ["8=FIX.4.4", "35=D", "49=A", "56=B", "52=-1 01 01-10:00:00",
            "10=169"]) = [.ok m] ∧ m.header.IsAddressed ∧
          ∃ fault, decodeAll .usual m.render = [.error fault] ∧
          ∃ t, m.header.sendingTime = some t ∧ ¬ t.date.HasFourDigits :=
      ⟨_, rfl, ⟨rfl, by decide, by decide⟩, _, rfl, _, rfl, by decide⟩
    refine ⟨_, m, hm, haddressed, fun hyears => hyear (hyears.1 t htime), not_isSentOn hagain ?_⟩
    rintro m' ⟨⟩

end Message

end FixEngine
