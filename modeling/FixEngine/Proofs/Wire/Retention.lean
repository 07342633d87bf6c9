import FixEngine.Proofs.Wire.Resending
import Mathlib.Data.List.Forall2

/-!
# What becomes of header and trailer records

Every header record of a message that is handed over fills its slot or is kept as a field
of the header, and every trailer record is kept as a field of the trailer, in the order of
arrival.  Only the sending time can be lost: under a dictionary that gives its tag another
type than that of a timestamp it is read and left out.
-/

namespace FixEngine

/-! ### Contents of slots -/

/-- What a slot of the header can hold. -/
inductive Slot.Content where
  | number (n : UInt32)
  | text (text : String)
  | msgType (type : MsgType)
  | moment (t : Timestamp)
  deriving DecidableEq, Repr

/-- What the bytes of a value stand for in a slot. -/
def Slot.contentOf? (slot : Slot) (bytes : Bytes) : Option Slot.Content :=
  match slot with
  | bodyLength | msgSeqNum => (Value.readUnsigned bytes).toOption.map .number
  | msgType => (Value.readText bytes).toOption.map fun text => .msgType (MsgType.ofText text)
  | senderCompId | targetCompId | senderSubId | targetSubId | senderLocationId
  | targetLocationId => (Value.readText bytes).toOption.map .text
  | sendingTime => (Timestamp.parse? bytes).map .moment

/-- What a slot holds. -/
def Header.content? (h : Header) : Slot → Option Slot.Content
  | .bodyLength => h.bodyLength.map .number
  | .msgType => h.msgType.map .msgType
  | .senderCompId => some (.text h.senderCompId)
  | .targetCompId => some (.text h.targetCompId)
  | .msgSeqNum => h.msgSeqNum.map .number
  | .senderSubId => h.senderSubId.map .text
  | .targetSubId => h.targetSubId.map .text
  | .senderLocationId => h.senderLocationId.map .text
  | .targetLocationId => h.targetLocationId.map .text
  | .sendingTime => h.sendingTime.map .moment

/-- A slot holds what the bytes stand for. -/
def Header.Holds (h : Header) (slot : Slot) (bytes : Bytes) : Prop :=
  ∃ content, slot.contentOf? bytes = some content ∧ h.content? slot = some content

/-- The dictionary reads the value of a slot as what the slot is for. -/
def Dictionary.Serves (d : Dictionary) (slot : Slot) : Prop :=
  slot = .sendingTime → d.typeOf Tag.sendingTime = .utcTimestamp

namespace Header

variable {d : Dictionary} {h h' : Header} {slot slot' : Slot} {bytes : Bytes}

/-- A value is a timestamp only if its type is. -/
theorem type_of_read_timestamp {type : DataType} {t : Timestamp}
    (h : Value.read type bytes = .ok (.timestamp t)) : type = .utcTimestamp := by
  cases type with
  | utcTimestamp => rfl
  | utcTimeOnly | utcDateOnly =>
    obtain ⟨_, -, hvalue⟩ := Option.map_eq_some_iff.1 (Value.orFault_eq_ok_iff.1 h)
    contradiction
  | int | length | seqNum | numInGroup | tagNum | dayOfMonth | char | boolean | string
  | multipleValueString | currency | exchange | country | monthYear | localMktDate =>
    obtain ⟨_, -, hvalue⟩ := map_eq_ok_iff.1 h
    contradiction
  | float | qty | price | priceOffset | amt | percentage =>
    obtain ⟨_, -, hvalue⟩ := map_eq_ok_iff.1 (mapError_eq_ok_iff.1 h)
    contradiction
  | data => cases h

/-- A slot that is filled holds what was read, unless the value is none for it. -/
theorem holds_iff_of_fill (hfill : h.fill d slot bytes = .ok h') :
    h'.Holds slot bytes ↔ d.Serves slot := by
  cases slot with
  | bodyLength | msgSeqNum =>
    obtain ⟨n, hread, hh⟩ := bind_eq_ok_iff.1 hfill
    cases hh
    refine iff_of_true ⟨.number n, ?_, rfl⟩ nofun
    rw [Slot.contentOf?, toOption_eq_some_iff.2 hread, Option.map_some]
  | msgType =>
    obtain ⟨text, hread, hh⟩ := bind_eq_ok_iff.1 hfill
    cases hh
    refine iff_of_true ⟨.msgType (MsgType.ofText text), ?_, rfl⟩ nofun
    rw [Slot.contentOf?, toOption_eq_some_iff.2 hread, Option.map_some]
  | senderCompId | targetCompId | senderSubId | targetSubId | senderLocationId
  | targetLocationId =>
    obtain ⟨text, hread, hh⟩ := bind_eq_ok_iff.1 hfill
    cases hh
    refine iff_of_true ⟨.text text, ?_, rfl⟩ nofun
    rw [Slot.contentOf?, toOption_eq_some_iff.2 hread, Option.map_some]
  | sendingTime =>
    obtain ⟨value, hread, hh⟩ := bind_eq_ok_iff.1 hfill
    cases hh
    constructor
    · rintro ⟨content, -, hcontent⟩ -
      cases value with
      | timestamp t => exact type_of_read_timestamp hread
      | _ => contradiction
    · intro hserves
      rw [Dictionary.read, hserves rfl] at hread
      obtain ⟨t, ht, rfl⟩ := Option.map_eq_some_iff.1 (Value.orFault_eq_ok_iff.1 hread)
      refine ⟨.moment t, ?_, rfl⟩
      rw [Slot.contentOf?, ht, Option.map_some]

theorem fields_of_fill (hfill : h.fill d slot bytes = .ok h') :
    h'.beginString = h.beginString ∧ h'.fields = h.fields := by
  cases slot <;>
  · obtain ⟨_, -, hh⟩ := bind_eq_ok_iff.1 hfill
    cases hh
    exact ⟨rfl, rfl⟩

/-- The other slots stay as they are. -/
theorem content?_of_fill (hne : slot' ≠ slot) (hfill : h.fill d slot bytes = .ok h') :
    h'.content? slot' = h.content? slot' := by
  cases slot <;>
  · obtain ⟨_, -, hh⟩ := bind_eq_ok_iff.1 hfill
    cases hh
    cases slot' <;> first | rfl | exact absurd rfl hne

end Header

/-! ### Records that are added -/

/-- The slots that some records fill, in order of arrival. -/
def Record.slots (records : List Record) : List Slot :=
  records.filterMap fun r => Slot.ofTag? r.tag

theorem Record.slots_cons (r : Record) (rest : List Record) :
    slots (r :: rest) = (Slot.ofTag? r.tag).toList ++ slots rest := by
  rw [slots, List.filterMap_cons]
  cases Slot.ofTag? r.tag with
  | none => rfl
  | some slot => rfl

/-- The record belongs to the header and has no slot there. -/
def Record.isHeaderField (r : Record) : Bool := r.tag.isHeader && (Slot.ofTag? r.tag).isNone

/-- The field has the tag of the record and the value that the dictionary reads. -/
def Record.ReadAs (d : Dictionary) (r : Record) (f : Field) : Prop :=
  f.tag = r.tag ∧ d.read r.tag r.value = .ok f.value

theorem Record.readAs_of_readField {d : Dictionary} {r : Record} {f : Field}
    (h : BodyDraft.readField d r = .ok f) : r.ReadAs d f := by
  obtain ⟨value, hread, rfl⟩ := BodyDraft.exists_read_of_readField h
  exact ⟨rfl, hread⟩

/-- The fields grow by those of the chosen records, each once and in order. -/
def Field.Grow (d : Dictionary) (p : Record → Bool) (records : List Record)
    (before after : List Field) : Prop :=
  ∃ added, after = before ++ added ∧ List.Forall₂ (Record.ReadAs d) (records.filter p) added

theorem Field.Grow.none {d : Dictionary} {p : Record → Bool} {records : List Record}
    (h : records.filter p = []) (fields : List Field) : Grow d p records fields fields :=
  ⟨[], (List.append_nil fields).symm, h ▸ .nil⟩

theorem Field.Grow.one {d : Dictionary} {p : Record → Bool} {r : Record} {f : Field}
    (h : p r = true) (hread : BodyDraft.readField d r = .ok f) (fields : List Field) :
    Grow d p [r] fields (fields ++ [f]) := by
  refine ⟨[f], rfl, ?_⟩
  rw [List.filter_cons_of_pos h]
  exact .cons (Record.readAs_of_readField hread) .nil

theorem Field.Grow.cons {d : Dictionary} {p : Record → Bool} {r : Record} {rest : List Record}
    {before middle after : List Field} (hfirst : Grow d p [r] before middle)
    (hrest : Grow d p rest middle after) : Grow d p (r :: rest) before after := by
  obtain ⟨first, rfl, hone⟩ := hfirst
  obtain ⟨more, rfl, hothers⟩ := hrest
  refine ⟨first ++ more, List.append_assoc before first more, ?_⟩
  rw [← List.singleton_append, List.filter_append]
  exact List.rel_append hone hothers

/-- No tag of the header is one of the trailer. -/
theorem Tag.isTrailer_eq_false {tag : Tag} (h : tag.isHeader = true) : tag.isTrailer = false := by
  rw [← Bool.not_eq_true]
  intro htrailer
  rcases Tag.eq_of_isTrailer htrailer with rfl | rfl | rfl <;> contradiction

namespace MessageDraft

variable {d : Dictionary} {draft next last : MessageDraft} {r : Record} {records : List Record}
  {slot : Slot}

/-- What one record does to the slots and the fields of a message in progress. -/
structure Keeps (d : Dictionary) (draft : MessageDraft) (r : Record) (next : MessageDraft) :
    Prop where
  beginString : next.header.beginString = draft.header.beginString
  /-- A slot of another tag stays as it is. -/
  other : ∀ slot, Slot.ofTag? r.tag ≠ some slot →
    next.header.content? slot = draft.header.content? slot
  holds : ∀ slot, Slot.ofTag? r.tag = some slot →
    (next.header.Holds slot r.value ↔ d.Serves slot)
  header : Field.Grow d Record.isHeaderField [r] draft.header.fields next.header.fields
  trailer : Field.Grow d (·.tag.isTrailer) [r] draft.trailerFields next.trailerFields

theorem Adds.keeps (h : draft.Adds d r next) : draft.Keeps d r next := by
  cases h with
  | @slot slot header hslot hfill =>
    have hisHeader := Slot.isHeader_of_ofTag? hslot
    obtain ⟨hbegin, hfields⟩ := Header.fields_of_fill hfill
    refine ⟨hbegin, fun slot' hne => ?_, ?_, ?_, ?_⟩
    · refine Header.content?_of_fill ?_ hfill
      rintro rfl
      exact hne hslot
    · intro slot' hslot'
      cases hslot.symm.trans hslot'
      exact Header.holds_iff_of_fill hfill
    · dsimp only
      rw [hfields]
      exact .none (by simp [Record.isHeaderField, hslot]) _
    · exact .none (by simp [Tag.isTrailer_eq_false hisHeader]) _
  | header hslot hisHeader hread =>
    refine ⟨rfl, fun _ _ => rfl, by simp [hslot], ?_, ?_⟩
    · exact .one (by simp [Record.isHeaderField, hslot, hisHeader]) hread _
    · exact .none (by simp [Tag.isTrailer_eq_false hisHeader]) _
  | trailer hisHeader htrailer hclose hread =>
    have hslot : Slot.ofTag? r.tag = none := Slot.ofTag?_eq_none hisHeader
    refine ⟨rfl, fun _ _ => rfl, by simp [hslot], ?_, ?_⟩
    · exact .none (by simp [Record.isHeaderField, hisHeader]) _
    · exact .one htrailer hread _
  | body hisHeader htrailer hplace =>
    have hslot : Slot.ofTag? r.tag = none := Slot.ofTag?_eq_none hisHeader
    refine ⟨rfl, fun _ _ => rfl, by simp [hslot], ?_, ?_⟩
    · exact .none (by simp [Record.isHeaderField, hisHeader]) _
    · exact .none (by simp [htrailer]) _

/-! ### Runs of records -/

/-- A slot that no record fills stays as it is. -/
theorem content?_of_addAll (h : draft.addAll d records = .ok last)
    (hslots : slot ∉ Record.slots records) :
    last.header.content? slot = draft.header.content? slot := by
  induction records generalizing draft with
  | nil =>
    cases h
    rfl
  | cons r rest ih =>
    obtain ⟨next, hr, hrest⟩ := foldlM_cons_eq_ok_iff.1 h
    rw [Record.slots_cons, List.mem_append, not_or, Option.mem_toList] at hslots
    rw [ih hrest hslots.2, (adds_of_addRecord hr).keeps.other slot hslots.1]

/-- Of records that fill each slot at most once, all are kept that the dictionary reads as
what their slots are for. -/
theorem holds_iff_of_addAll (h : draft.addAll d records = .ok last)
    (honce : (Record.slots records).Nodup) (hr : r ∈ records)
    (hslot : Slot.ofTag? r.tag = some slot) : last.header.Holds slot r.value ↔ d.Serves slot := by
  induction records generalizing draft with
  | nil => contradiction
  | cons r' rest ih =>
    obtain ⟨next, hnext, hrest⟩ := foldlM_cons_eq_ok_iff.1 h
    rw [Record.slots_cons, List.nodup_append] at honce
    obtain ⟨-, hlater, hapart⟩ := honce
    rcases List.mem_cons.1 hr with rfl | hmem
    · have hnone : slot ∉ Record.slots rest := fun hmem =>
        hapart slot (Option.mem_toList.2 hslot) slot hmem rfl
      have hsame := content?_of_addAll hrest hnone
      rw [Header.Holds, hsame]
      exact (adds_of_addRecord hnext).keeps.holds slot hslot
    · exact ih hrest hlater hmem

/-- The first text stays, and the records of the header and of the trailer that have no
slot become their fields. -/
theorem fields_of_addAll (h : draft.addAll d records = .ok last) :
    last.header.beginString = draft.header.beginString ∧
      Field.Grow d Record.isHeaderField records draft.header.fields last.header.fields ∧
      Field.Grow d (·.tag.isTrailer) records draft.trailerFields last.trailerFields := by
  induction records generalizing draft with
  | nil =>
    cases h
    exact ⟨rfl, .none rfl _, .none rfl _⟩
  | cons r rest ih =>
    obtain ⟨next, hr, hrest⟩ := foldlM_cons_eq_ok_iff.1 h
    obtain ⟨hbegin, hheader, htrailer⟩ := ih hrest
    have hkeeps := (adds_of_addRecord hr).keeps
    exact ⟨hbegin.trans hkeeps.beginString, hkeeps.header.cons hheader,
      hkeeps.trailer.cons htrailer⟩

end MessageDraft

/-! ### Messages that are handed over -/

/-- The records on a path are all well formed. -/
theorem Nest.Path.parsed {d : Dictionary} {nest last : Nest} {raws : List Bytes}
    (h : Path d nest raws last) :
    List.Forall₂ (fun raw r => Record.parse raw = .ok r) raws (Record.allOf raws) := by
  induction h with
  | nil => exact .nil
  | cons hparse _ _ _ ih =>
    rw [Record.allOf_cons hparse]
    exact .cons hparse ih

namespace Assembler

variable {d : Dictionary} {records : List Bytes} {k : Nat} {m : Message}

/-- The header and trailer records of a message that is handed over are all kept, each once
and in order: in their slots, or as fields of the header and of the trailer.  The one
exception is a sending time that the dictionary does not read as a timestamp. -/
theorem retained_of_emits (h : Emits d records k m) :
    (∃ s : Span records k, s.IsSealed d) ∧ ∀ s : Span records k, s.IsSealed d →
      List.Forall₂ (fun raw r => Record.parse raw = .ok r) s.inner (Record.allOf s.inner) ∧
      Record.text? s.first = some m.header.beginString ∧
      ((Record.slots (Record.allOf s.inner)).Nodup → ∀ r ∈ Record.allOf s.inner,
        ∀ slot, Slot.ofTag? r.tag = some slot → (m.header.Holds slot r.value ↔ d.Serves slot)) ∧
      List.Forall₂ (Record.ReadAs d) ((Record.allOf s.inner).filter Record.isHeaderField)
        m.header.fields ∧
      List.Forall₂ (Record.ReadAs d) ((Record.allOf s.inner).filter (·.tag.isTrailer))
        m.trailer.fields := by
  refine ⟨exists_isSealed h, fun s hs => ?_⟩
  obtain ⟨text, draft, htext, hadd, -, hheader, htrailer⟩ := exists_addAll_of_emits h s hs
  obtain ⟨nest, hpath, -⟩ := hs.path
  obtain ⟨hbegin, ⟨headerFields, hheaderFields, hheaderRead⟩, trailerFields, htrailerFields,
    htrailerRead⟩ := MessageDraft.fields_of_addAll hadd
  rw [MessageDraft.start, List.nil_append] at hheaderFields htrailerFields
  rw [hheader, htrailer, hheaderFields, htrailerFields, hbegin]
  exact ⟨hpath.parsed, htext,
    fun honce r hr slot hslot => MessageDraft.holds_iff_of_addAll hadd honce hr hslot,
    hheaderRead, htrailerRead⟩

/-- A heartbeat with records for five slots, two fields of the header and two of the
trailer. -/
def sampleHeartbeat : List Bytes :=
  ["8=FIX.4.4", "35=0", "49=A", "43=Y", "56=B", "34=7", "97=N", "52=19980604-08:03:31", "112=x",
    "93=1", "89=s", "10=005"].map Utf8.encode

set_option maxRecDepth 10000 in
/-- The records of the heartbeat. -/
def sampleHeartbeatSpan : Span sampleHeartbeat 11 where
  before := []
  first := Utf8.encode "8=FIX.4.4"
  inner := sampleHeartbeat.tail.take 10
  last := Utf8.encode "10=005"
  rest := []
  split := rfl
  index := rfl
  isInner := by
    unfold Record.IsInner
    decide +kernel

set_option maxRecDepth 10000 in
theorem retained_of_emits_sample :
    ∃ m, Emits .usual sampleHeartbeat 11 m ∧ m.header.fields.map Field.tag = [43, 97] ∧
      m.trailer.fields.map Field.tag = [93, 89] ∧
      m.header.Holds .sendingTime (Utf8.encode "19980604-08:03:31") := by
  obtain ⟨m, hemits, hheader, htrailer⟩ : ∃ m, Emits .usual sampleHeartbeat 11 m ∧
      m.header.fields.map Field.tag = [43, 97] ∧ m.trailer.fields.map Field.tag = [93, 89] :=
    ⟨_, rfl, rfl, rfl⟩
  have hs : sampleHeartbeatSpan.IsSealed .usual := isSealed_of_emits hemits _ rfl rfl
  obtain ⟨-, -, hslots, -⟩ := (retained_of_emits hemits).2 sampleHeartbeatSpan hs
  have honce : (Record.slots (Record.allOf sampleHeartbeatSpan.inner)).Nodup := by decide +kernel
  have hr : (⟨52, Utf8.encode "19980604-08:03:31"⟩ : Record) ∈
      Record.allOf sampleHeartbeatSpan.inner := by decide +kernel
  exact ⟨m, hemits, hheader, htrailer,
    (hslots honce _ hr .sendingTime (by decide)).2 fun _ => rfl⟩

set_option maxRecDepth 10000 in
/-- A sending time whose tag has the type of a text is taken and kept nowhere. -/
theorem exists_sendingTime_lost :
    ∃ d records m, ∃ s : Span records 5, Emits d records 5 m ∧ s.IsSealed d ∧
      (Record.slots (Record.allOf s.inner)).Nodup ∧
      (∃ r ∈ Record.allOf s.inner, Slot.ofTag? r.tag = some .sendingTime ∧
        ¬ m.header.Holds .sendingTime r.value) ∧
      m.header.sendingTime = none ∧ m.header.fields = [] ∧ m.trailer.fields = [] := by
  let d : Dictionary := (Dictionary.plain .fix44).withType 52 .string
  let records : List Bytes :=
    ["8=FIX.4.4", "35=0", "49=A", "56=B", "52=19980604-08:03:31", "10=232"].map Utf8.encode
  let s : Span records 5 :=
    ⟨[], Utf8.encode "8=FIX.4.4", records.tail.take 4, Utf8.encode "10=232", [], rfl, rfl, by
      unfold Record.IsInner
      decide +kernel⟩
  obtain ⟨m, hemits, htime, hheader, htrailer⟩ : ∃ m, Emits d records 5 m ∧
      m.header.sendingTime = none ∧ m.header.fields = [] ∧ m.trailer.fields = [] :=
    ⟨_, rfl, rfl, rfl, rfl⟩
  have hs : s.IsSealed d := isSealed_of_emits hemits s rfl rfl
  have hlost (bytes : Bytes) : ¬ m.header.Holds .sendingTime bytes := by
    rintro ⟨content, -, hcontent⟩
    rw [Header.content?, htime] at hcontent
    contradiction
  exact ⟨d, records, m, s, hemits, hs, by decide +kernel,
    ⟨⟨52, Utf8.encode "19980604-08:03:31"⟩, by decide +kernel, by decide, hlost _⟩,
    htime, hheader, htrailer⟩

end Assembler

end FixEngine
