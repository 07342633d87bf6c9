import FixEngine.Proofs.Wire.Admissible
import FixEngine.Proofs.Wire.Resending

/-!
# The texts of a message that was read

Whatever was read from the wire may stand there again, in the slots of the header and in
the body at any depth, and whichever groups the dictionary knows.  What a message that was
read may lack are the names of the companies, for which no reading asks.
-/

namespace FixEngine

namespace MessageDraft

variable {d : Dictionary} {draft last : MessageDraft} {records : List Record}

theorem isRead_header_addAll (hread : draft.header.IsRead d) (hrecords : ∀ r ∈ records,
    r.IsWritable ∧ r.tag ≠ Tag.beginString ∧ r.tag ≠ Tag.checkSum)
    (hadd : draft.addAll d records = .ok last) : last.header.IsRead d := by
  induction records generalizing draft with
  | nil =>
    cases hadd
    exact hread
  | cons r rest ih =>
    rw [List.forall_mem_cons] at hrecords
    obtain ⟨⟨hwritable, hbegin, hend⟩, hlater⟩ := hrecords
    obtain ⟨next, hr, hrest⟩ := foldlM_cons_eq_ok_iff.1 hadd
    exact ih ((adds_of_addRecord hr).isRead_header hread hwritable hbegin hend) hlater hrest

end MessageDraft

namespace BodyDraft

variable {d : Dictionary} {r : Record} {draft next last : BodyDraft} {records : List Bytes}

/-- The fields of a body that is still arriving may stand on the wire. -/
def HoldsWritable (draft : BodyDraft) : Prop :=
  ∀ f ∈ draft.fields, Bytes.IsWritable f.value.toBytes

theorem HoldsWritable.of_follows (hfollows : draft.Follows d r next)
    (hr : Bytes.IsWritable r.value) (hdraft : draft.HoldsWritable) : next.HoldsWritable := by
  have hsettled {settled : BodyDraft} (hcloses : draft.ClosesTo settled) :
      settled.HoldsWritable := by
    rw [HoldsWritable, hcloses.fields_eq]
    exact hdraft
  cases hfollows with
  | header => exact hdraft
  | trailer _ _ hcloses => exact hsettled hcloses
  | opened _ _ hcloses =>
    rw [HoldsWritable, fields_cons, List.forall_mem_append]
    exact ⟨hsettled hcloses, List.forall_mem_singleton.2 (Numeral.isWritable_ofInt _)⟩
  | held _ _ hcloses _ _ _ hread =>
    rw [HoldsWritable, fields_putField, List.forall_mem_append]
    exact ⟨hsettled hcloses,
      List.forall_mem_singleton.2 (Field.isRead_of_readField hread hr).isWritable⟩

theorem Run.holdsWritable (hrun : Run d draft records last)
    (hrecords : ∀ r ∈ Record.allOf records, Bytes.IsWritable r.value)
    (hdraft : draft.HoldsWritable) : last.HoldsWritable := by
  induction hrun with
  | nil => exact hdraft
  | cons hparse _ hfollows _ _ ih =>
    rw [Record.allOf_cons hparse, List.forall_mem_cons] at hrecords
    exact ih hrecords.2 (hdraft.of_follows hfollows hrecords.1)

end BodyDraft

/-- A field that is found among entries stands among their fields in wire order. -/
theorem Entry.mem_fieldsOf_of_find? {tag : Tag} {f : Field} {entries : List Entry}
    (h : find? tag entries = some f) : f ∈ fieldsOf entries := by
  obtain ⟨before, entry, after, rfl, hfield, -⟩ := List.findSome?_eq_some_iff.1 h
  cases entry with
  | group countTag instances => contradiction
  | field g =>
    have hg : g = f := Option.some.inj (Option.ite_none_right_eq_some.1 hfield).2
    rw [fieldsOf_append, fieldsOf, fields, hg]
    exact List.mem_append_right _ List.mem_cons_self

theorem Value.eq_text_of_text? {value : Value} {text : String} (h : value.text? = some text) :
    value = .text text := by
  cases value with
  | text => exact congrArg Value.text (Option.some.inj h)
  | _ => contradiction

namespace Message

variable {d : Dictionary} {m : Message} {bytes : Bytes} {k : Nat}

/-- The texts of a message may stand on the wire again. -/
structure IsReceived (m : Message) : Prop where
  beginString : Utf8.IsWritable m.header.beginString
  /-- The sender may be missing. -/
  senderCompId : m.header.senderCompId ≠ "" → Utf8.IsWritable m.header.senderCompId
  /-- The target may be missing. -/
  targetCompId : m.header.targetCompId ≠ "" → Utf8.IsWritable m.header.targetCompId
  partyDetails : ∀ detail ∈ m.header.partyDetails, ∀ text, detail.2 = some text →
    Utf8.IsWritable text
  text : ∀ tag text, m.text? tag = some text → Utf8.IsWritable text

theorem isRead_header_of_emits (h : Assembler.Emits d (Record.cut bytes) k m) :
    m.header.IsRead d := by
  obtain ⟨s, hs⟩ := Assembler.exists_isSealed h
  obtain ⟨text, draft, htext, hadd, -, hheader, -⟩ := Assembler.exists_addAll_of_emits h s hs
  have hstart := Header.isRead_start (d := d) (Record.isWritable_of_text? s.first_mem htext)
  rw [hheader]
  exact MessageDraft.isRead_header_addAll hstart s.allOf_inner_spec hadd

theorem isWritable_body_of_emits (h : Assembler.Emits d (Record.cut bytes) k m) :
    ∀ f ∈ Entry.fieldsOf m.body, Bytes.IsWritable f.value.toBytes := by
  obtain ⟨s, -, body, hrun, -, hcloses⟩ := Assembler.exists_run_of_emits h
  have hempty : BodyDraft.HoldsWritable {} := List.forall_mem_nil _
  have hfilled := hrun.holdsWritable (fun r hr => (s.allOf_inner_spec r hr).1.value) hempty
  rw [BodyDraft.HoldsWritable, ← hcloses.fields_eq, BodyDraft.fields_nil] at hfilled
  exact hfilled

/-- A message that was read from bytes, with whatever dictionary. -/
theorem isReceived_of_mem_decodeAll (h : .ok m ∈ decodeAll d bytes) : m.IsReceived := by
  obtain ⟨k, hemits⟩ := Assembler.mem_decodeAll_iff.1 h
  have hheader := isRead_header_of_emits hemits
  refine ⟨?_, ?_, ?_, ?_, ?_⟩
  · exact Utf8.isWritable_encode_iff.1 hheader.beginString
  · exact fun hne => Utf8.isWritable_encode_iff.1 (hheader.senderCompId hne)
  · exact fun hne => Utf8.isWritable_encode_iff.1 (hheader.targetCompId hne)
  · exact fun detail hdetail text htext =>
      Utf8.isWritable_encode_iff.1 (hheader.partyDetails detail hdetail text htext)
  · intro tag text htext
    obtain ⟨value, hvalue, hread⟩ := Option.bind_eq_some_iff.1 htext
    obtain ⟨f, hf, rfl⟩ := Option.map_eq_some_iff.1 hvalue
    have hwritable := isWritable_body_of_emits hemits f (Entry.mem_fieldsOf_of_find? hf)
    rw [Value.eq_text_of_text? hread] at hwritable
    exact Utf8.isWritable_encode_iff.1 hwritable

end Message

end FixEngine
