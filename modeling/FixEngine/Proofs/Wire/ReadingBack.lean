import FixEngine.Proofs.Wire.Body
import FixEngine.Proofs.Wire.RoundTrip

/-!
# What reading back may find

Whatever the encoder writes hands over one message or fault under every dictionary.
A fault is about what the message holds: a value that the dictionary reads otherwise, or
a group with another count.  It is never about the records that carry the message, save
for the tag zero, which the encoder lets through and which is read nowhere.
-/

namespace FixEngine

/-- The fault is about what a message holds, and not about the records that carry it. -/
def DecodingFault.IsOfContent : DecodingFault → Prop
  | invalidValue _ _ => True
  | groupCountMismatch _ _ _ => True
  | missingBeginString _ => False
  | unexpectedBeginString => False
  | checksumMismatch _ _ => False
  | malformedRecord _ => False
  | invalidTag _ => False

open DecodingFault

variable {d : Dictionary} {r : Record} {fault : DecodingFault}

/-! ### The body -/

theorem OpenGroup.isOfContent_of_close {g : OpenGroup} (h : g.close = .error fault) :
    fault.IsOfContent := by
  rw [close] at h
  split at h
  · contradiction
  · cases h
    trivial

namespace BodyDraft

theorem isOfContent_of_readField (h : readField d r = .error fault) : fault.IsOfContent := by
  rw [readField] at h
  cases hread : d.read r.tag r.value with
  | ok value =>
    rw [hread] at h
    contradiction
  | error reason =>
    rw [hread] at h
    cases h
    trivial

theorem isOfContent_of_openGroup {layout : Layout} (h : openGroup layout r = .error fault) :
    fault.IsOfContent := by
  rw [openGroup] at h
  cases hcount : Value.readCount r.value with
  | ok declared =>
    rw [hcount] at h
    contradiction
  | error reason =>
    rw [hcount] at h
    cases h
    trivial

theorem isOfContent_of_place {draft : BodyDraft} (h : draft.place d r = .error fault) :
    fault.IsOfContent := by
  induction draft using closingInduction with
  | nil entries =>
    rw [place_nil] at h
    cases hlayout : d.layout? r.tag with
    | some layout =>
      rw [hlayout] at h
      exact isOfContent_of_openGroup (eq_error_of_bind_ok h)
    | none =>
      rw [hlayout] at h
      exact isOfContent_of_readField (eq_error_of_bind_ok h)
  | cons g outer entries ih =>
    rw [place_cons] at h
    cases hplace : placeIn g r.tag with
    | delimiter | member =>
      rw [hplace] at h
      exact isOfContent_of_readField (eq_error_of_bind_ok h)
    | count layout =>
      rw [hplace] at h
      exact isOfContent_of_openGroup (eq_error_of_bind_ok h)
    | outside =>
      rw [hplace] at h
      rcases bind_eq_error_iff.1 h with hclose | ⟨entry, -, hrest⟩
      · exact OpenGroup.isOfContent_of_close hclose
      · exact ih entry hrest

theorem isOfContent_of_close {draft : BodyDraft} (h : draft.close = .error fault) :
    fault.IsOfContent := by
  induction draft using closingInduction with
  | nil entries =>
    rw [close_nil] at h
    contradiction
  | cons g outer entries ih =>
    rw [close_cons] at h
    rcases bind_eq_error_iff.1 h with hclose | ⟨entry, -, hrest⟩
    · exact OpenGroup.isOfContent_of_close hclose
    · exact ih entry hrest

end BodyDraft

/-! ### The message -/

namespace MessageDraft

variable {draft next : MessageDraft} {records : List Record}

theorem isOfContent_of_addRecord (h : draft.addRecord d r = .error fault) :
    fault.IsOfContent := by
  rw [addRecord] at h
  cases hslot : Slot.ofTag? r.tag with
  | some slot =>
    rw [hslot] at h
    dsimp only at h
    cases hfill : draft.header.fill d slot r.value with
    | ok header =>
      rw [hfill] at h
      contradiction
    | error reason =>
      rw [hfill] at h
      cases h
      trivial
  | none =>
    rw [hslot] at h
    dsimp only at h
    split at h
    · exact BodyDraft.isOfContent_of_readField (eq_error_of_bind_ok h)
    · split at h
      · rcases bind_eq_error_iff.1 h with hclose | ⟨entries, -, hrest⟩
        · exact BodyDraft.isOfContent_of_close hclose
        · exact BodyDraft.isOfContent_of_readField (eq_error_of_bind_ok hrest)
      · exact BodyDraft.isOfContent_of_place (eq_error_of_bind_ok h)

/-- Of several records the first that is refused decides the fault: it is of content or has
the tag zero. -/
theorem fault_of_takeUpAll (h : draft.takeUpAll d records = .error fault) :
    fault.IsOfContent ∨ fault = .invalidTag "0" ∧ ∃ r ∈ records, r.tag = 0 := by
  induction records generalizing draft with
  | nil => contradiction
  | cons r rest ih =>
    rw [takeUpAll_cons] at h
    rcases bind_eq_error_iff.1 h with hr | ⟨next, -, hrest⟩
    · rw [takeUp] at hr
      split at hr
      · next hzero =>
        cases hr
        exact .inr ⟨rfl, r, List.mem_cons_self, hzero⟩
      · exact .inl (isOfContent_of_addRecord hr)
    · rcases ih hrest with hcontent | ⟨hzero, r', hr', htag⟩
      · exact .inl hcontent
      · exact .inr ⟨hzero, r', List.mem_cons_of_mem r hr', htag⟩

/-- No record under the tag zero is taken up. -/
theorem tag_ne_zero_of_takeUpAll (h : draft.takeUpAll d records = .ok next) :
    ∀ r ∈ records, r.tag ≠ 0 := by
  induction records generalizing draft with
  | nil => exact List.forall_mem_nil _
  | cons r rest ih =>
    rw [takeUpAll_cons] at h
    obtain ⟨second, hr, hrest⟩ := bind_eq_ok_iff.1 h
    rw [List.forall_mem_cons]
    refine ⟨?_, ih hrest⟩
    intro hzero
    rw [takeUp, if_pos hzero] at hr
    contradiction

/-- Under the checksum of its bytes a message has no fault at its end but in its groups. -/
theorem isOfContent_of_finish (h : draft.finish (Checksum.render draft.sum) = .error fault) :
    fault.IsOfContent := by
  rw [finish] at h
  rcases bind_eq_error_iff.1 h with hclose | ⟨entries, -, hrest⟩
  · exact BodyDraft.isOfContent_of_close hclose
  · simp only [Checksum.parse?_render, if_true] at hrest
    contradiction

end MessageDraft

namespace Message

variable {m : Message}

theorem fault_of_frame (hcheck : m.check = .ok ())
    (h : (frame hcheck).delivery d = .error fault) :
    fault.IsOfContent ∨ fault = .invalidTag "0" ∧ ∃ f ∈ m.freeFields, f.tag = 0 := by
  rw [delivery_frame] at h
  rcases bind_eq_error_iff.1 h with hinner | ⟨last, -, hfinish⟩
  · rcases MessageDraft.fault_of_takeUpAll hinner with hcontent | ⟨hfault, r, hr, hzero⟩
    · exact .inl hcontent
    · exact .inr ⟨hfault, exists_freeField_of_zero hr hzero⟩
  · exact .inl (MessageDraft.isOfContent_of_finish hfinish)

/-- Whatever the encoder writes hands over exactly one message or fault.  A fault is of
content unless a field has the tag zero, and then there is a fault. -/
theorem decodeAll_encode_of_content (d : Dictionary) (m : Message) (bytes : Bytes)
    (hencode : m.encode = .ok bytes) :
    ∃ result, decodeAll d bytes = [result] ∧
      ((∀ f ∈ m.freeFields, f.tag ≠ 0) →
        ∀ fault, result = .error fault → fault.IsOfContent) ∧
      ((∃ f ∈ m.freeFields, f.tag = 0) →
        ∃ fault, result = .error fault ∧ (fault.IsOfContent ∨ fault = .invalidTag "0")) := by
  obtain ⟨hcheck, rfl⟩ := encode_eq_ok_iff.1 hencode
  have hone : decodeAll d m.render = [(frame hcheck).delivery d] := by
    rw [← render_frame hcheck, Frame.decodeAll_render]
  refine ⟨(frame hcheck).delivery d, hone, ?_, ?_⟩
  · intro hnonzero fault hfault
    rcases fault_of_frame hcheck hfault with hcontent | ⟨-, f, hf, hzero⟩
    · exact hcontent
    · exact absurd hzero (hnonzero f hf)
  · rintro ⟨f, hf, hzero⟩
    cases hresult : (frame hcheck).delivery d with
    | ok received =>
      rw [delivery_frame] at hresult
      obtain ⟨last, hinner, -⟩ := bind_eq_ok_iff.1 hresult
      have hrecord : f.record ∈ m.innerRecords :=
        List.mem_cons_of_mem _ (List.mem_append_right _ (List.mem_map_of_mem hf))
      exact absurd hzero (MessageDraft.tag_ne_zero_of_takeUpAll hinner f.record hrecord)
    | error fault =>
      refine ⟨fault, rfl, ?_⟩
      rcases fault_of_frame hcheck hresult with hcontent | ⟨hfault, -⟩
      · exact .inl hcontent
      · exact .inr hfault

theorem decodeAll_encode_of_content_sample :
    sampleOrder.encode = .ok sampleOrder.render ∧ (∀ f ∈ sampleOrder.freeFields, f.tag ≠ 0) ∧
      ∃ result, decodeAll Dictionary.usual sampleOrder.render = [result] ∧
        ∀ fault, result = .error fault → fault.IsOfContent := by
  have hencode : sampleOrder.encode = .ok sampleOrder.render := rfl
  have hnonzero : ∀ f ∈ sampleOrder.freeFields, f.tag ≠ 0 := by decide
  obtain ⟨result, hone, hcontent, -⟩ :=
    decodeAll_encode_of_content Dictionary.usual sampleOrder _ hencode
  exact ⟨hencode, hnonzero, result, hone, hcontent hnonzero⟩

/-- A heartbeat with a field under the tag zero. -/
def sampleUntagged : Message where
  header := {
    beginString := "FIX.4.4"
    msgType := some .heartbeat
    senderCompId := "BUY"
    targetCompId := "SELL"
    msgSeqNum := some 7 }
  body := [.field ⟨0, .text "x"⟩]

/-- A message may be written that is refused for its records when it is read back. -/
theorem exists_encode_refused :
    ∃ bytes, sampleUntagged.encode = .ok bytes ∧
      (Record.render sampleUntagged.records).length < 4294967296 ∧
      decodeAll Dictionary.usual bytes = [.error (.invalidTag "0")] ∧
      ¬(DecodingFault.invalidTag "0").IsOfContent := by
  have hencode : sampleUntagged.encode = .ok sampleUntagged.render := rfl
  have hrefused : decodeAll Dictionary.usual sampleUntagged.render =
      [.error (.invalidTag "0")] := by rfl
  exact ⟨sampleUntagged.render, hencode, by decide, hrefused, not_false⟩

end Message

end FixEngine
