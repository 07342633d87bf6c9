import FixEngine.Proofs.Wire.Frame
import FixEngine.Proofs.Wire.RoundTrip

/-!
# Changed bytes

A byte of a value that changes on its way leaves the records as they are but for that
value, so that they are still a frame and hand over one message or fault.  It cannot be
a message: a message comes out only under the checksum of its bytes, and the change is
either in the bytes or in the digits of the checksum, but not in both.
-/

namespace FixEngine

/-- A position lies in the value of a record: after the first sign in the record, and
before the delimiter at its end. -/
def Record.IsInValue (bytes : Bytes) (i : Nat) : Prop :=
  ∃ before raw after k, cut bytes = before ++ raw :: after ∧ i = before.flatten.length + k ∧
    ((trimmed raw).takeWhile (· ≠ Ascii.equals)).length < k ∧ k < (trimmed raw).length

/-- Records of which one has another byte in its value, which is not the delimiter. -/
structure ByteChange where
  left : List Record
  tag : Tag
  front : Bytes
  old : UInt8
  new : UInt8
  back : Bytes
  right : List Record
  new_ne_old : new ≠ old
  new_ne_soh : new ≠ Ascii.soh

namespace ByteChange

/-- The records with the one whose value is changed. -/
def around (c : ByteChange) (value : Bytes) : List Record :=
  c.left ++ ⟨c.tag, value⟩ :: c.right

def oldValue (c : ByteChange) : Bytes := c.front ++ c.old :: c.back

def newValue (c : ByteChange) : Bytes := c.front ++ c.new :: c.back

def before (c : ByteChange) : List Record := c.around c.oldValue

def after (c : ByteChange) : List Record := c.around c.newValue

/-- A value that may stand on the wire may do so with the other byte in it. -/
theorem isWritable_newValue {c : ByteChange} (h : Bytes.IsWritable c.oldValue) :
    Bytes.IsWritable c.newValue := by
  have hsoh := h.soh_not_mem
  rw [oldValue, List.mem_append, List.mem_cons, not_or, not_or] at hsoh
  have htail : Ascii.soh ∉ c.new :: c.back := by
    rw [List.mem_cons, not_or]
    exact ⟨c.new_ne_soh.symm, hsoh.2.2⟩
  refine ⟨by simp [newValue], ?_⟩
  rw [newValue, List.mem_append, not_or]
  exact ⟨hsoh.1, htail⟩

/-- The bytes around the one that changes. -/
theorem exists_render_around (left right : List Record) (tag : Tag) (front back : Bytes) :
    ∃ prior later, prior.length = (Record.render left).length +
        ((Numeral.ofNat tag.toNat).length + 1 + front.length) ∧
      ∀ b, Record.render (left ++ ⟨tag, front ++ b :: back⟩ :: right) = prior ++ b :: later := by
  refine ⟨Record.render left ++ (Numeral.ofNat tag.toNat ++ Ascii.equals :: front),
    back ++ Ascii.soh :: Record.render right, ?_, ?_⟩
  · rw [List.length_append, List.length_append, List.length_cons]
    omega
  · intro b
    rw [Record.render_append, Record.render_cons, Record.toBytes_eq, Record.head]
    simp only [List.append_assoc, List.cons_append, List.nil_append]

end ByteChange

namespace Record

/-- A byte that is replaced in a value changes the value of one record. -/
theorem exists_byteChange {records : List Record} (hsoh : ∀ r ∈ records, Ascii.soh ∉ r.value)
    {i : Nat} {b : UInt8} (hi : IsInValue (render records) i) (hb : b ≠ Ascii.soh)
    (hne : (render records)[i]? ≠ some b) :
    ∃ c : ByteChange, c.before = records ∧ render c.after = (render records).set i b := by
  obtain ⟨before, raw, after, k, hcut, rfl, hsign, hend⟩ := hi
  rw [cut_render_of_soh_not_mem hsoh] at hcut
  obtain ⟨left, rest, rfl, hleft, hrest⟩ := List.map_eq_append_iff.1 hcut
  obtain ⟨r, right, rfl, hr, -⟩ := List.map_eq_cons_iff.1 hrest
  subst hleft hr
  rw [trimmed_toBytes, takeWhile_head] at hsign
  rw [trimmed_toBytes, head, List.length_append, List.length_cons] at hend
  let j := k - (Numeral.ofNat r.tag.toNat).length - 1
  have hj : j < r.value.length := by omega
  have hvalue : r.value.take j ++ r.value[j] :: r.value.drop (j + 1) = r.value := by
    rw [← List.drop_eq_getElem_cons hj, List.take_append_drop]
  obtain ⟨prior, later, hlength, hrender⟩ :=
    ByteChange.exists_render_around left right r.tag (r.value.take j) (r.value.drop (j + 1))
  have hposition : (left.map toBytes).flatten.length + k = prior.length := by
    have hflat : (left.map toBytes).flatten = render left := rfl
    rw [hlength, hflat, List.length_take]
    omega
  have hbefore := hrender r.value[j]
  rw [hvalue] at hbefore
  have hold : b ≠ r.value[j] := by
    rintro rfl
    apply hne
    rw [hbefore, hposition, List.getElem?_append_right (Nat.le_refl _), Nat.sub_self]
    rfl
  let c : ByteChange := {
    left, tag := r.tag, front := r.value.take j, old := r.value[j], new := b
    back := r.value.drop (j + 1), right, new_ne_old := hold, new_ne_soh := hb }
  refine ⟨c, ?_, ?_⟩
  · rw [ByteChange.before, ByteChange.around, ByteChange.oldValue, hvalue]
  · rw [ByteChange.after, ByteChange.around, ByteChange.newValue, hrender, hbefore, hposition,
      List.set_append_right _ _ (Nat.le_refl _), Nat.sub_self, List.set_cons_zero]

end Record

namespace Frame

variable {d : Dictionary} {f : Frame}

/-- The sum that is declared is the one of the bytes before it. -/
def IsSummed (f : Frame) : Prop := Checksum.parse? f.declared = some f.sum

/-- A record before the checksum may have another value. -/
theorem exists_with_value {left right : List Record} {tag : Tag} {old new : Bytes}
    (h : f.summed = left ++ ⟨tag, old⟩ :: right) (hnew : Bytes.IsWritable new) :
    ∃ f' : Frame, f'.summed = left ++ ⟨tag, new⟩ :: right ∧ f'.declared = f.declared := by
  cases left with
  | nil =>
    obtain ⟨htag, rfl⟩ := List.cons.inj h
    injection htag with htag hversion
    subst htag
    exact ⟨{ f with version := new, version_isWritable := hnew }, rfl, rfl⟩
  | cons first left =>
    obtain ⟨rfl, hrest⟩ := List.cons.inj h
    have hinner : f.inner = left ++ ⟨tag, old⟩ :: right := hrest
    have hwritable := f.inner_isWritable
    have htags := f.inner_tags
    rw [hinner, List.forall_mem_append, List.forall_mem_cons] at hwritable htags
    refine ⟨{ f with
      inner := left ++ ⟨tag, new⟩ :: right
      inner_isWritable := ?_
      inner_tags := ?_ }, rfl, rfl⟩
    · rw [List.forall_mem_append, List.forall_mem_cons]
      exact ⟨hwritable.1, hnew, hwritable.2.2⟩
    · rw [List.forall_mem_append, List.forall_mem_cons]
      exact htags

/-- After a change the records are a frame, but the sum that it declares is not its own. -/
theorem exists_after (c : ByteChange) (h : c.before = f.records) (hsummed : f.IsSummed) :
    ∃ f' : Frame, f'.records = c.after ∧ ¬f'.IsSummed := by
  have hwritable : Bytes.IsWritable c.newValue := by
    apply ByteChange.isWritable_newValue
    apply f.isWritable_records ⟨c.tag, c.oldValue⟩
    rw [← h]
    exact List.mem_append_right _ List.mem_cons_self
  rcases List.eq_nil_or_concat c.right with hright | ⟨right, last, hright⟩
  · -- The digits change, and not the bytes that they are the sum of.
    rw [ByteChange.before, ByteChange.around, hright, records, List.append_singleton_inj] at h
    obtain ⟨hleft, hlast⟩ := h
    injection hlast with htag hdeclared
    refine ⟨{ f with declared := c.newValue, declared_isWritable := hwritable }, ?_, ?_⟩
    · rw [ByteChange.after, ByteChange.around, hright, hleft, htag]
      rfl
    · intro hafter
      rw [IsSummed, ← hdeclared] at hsummed
      exact c.new_ne_old (Checksum.eq_of_parse?_around hafter hsummed)
  · -- The bytes change, and not the digits of their sum.
    rw [List.concat_eq_append] at hright
    rw [ByteChange.before, ByteChange.around, hright, records, ← List.cons_append,
      ← List.append_assoc, List.append_singleton_inj] at h
    obtain ⟨hfront, hlast⟩ := h
    obtain ⟨f', hsummed', hdeclared⟩ := exists_with_value hfront.symm hwritable
    refine ⟨f', ?_, ?_⟩
    · rw [records, hsummed', hdeclared, ByteChange.after, ByteChange.around, hright, hlast,
        List.append_assoc, List.cons_append]
    · intro hafter
      have hsums : f'.sum = f.sum := by
        rw [IsSummed, hdeclared, hsummed] at hafter
        exact (Option.some.inj hafter).symm
      obtain ⟨prior, later, -, hrender⟩ :=
        ByteChange.exists_render_around c.left right c.tag c.front c.back
      rw [sum, sum, hsummed', ← hfront, ByteChange.newValue, ByteChange.oldValue, hrender,
        hrender, Checksum.ofBytes_around_inj] at hsums
      exact c.new_ne_old hsums

end Frame

namespace Message

/-- A message is written under the sum of its bytes. -/
theorem isSummed_frame {m : Message} (hcheck : m.check = .ok ()) : (frame hcheck).IsSummed := by
  rw [Frame.IsSummed, sum_frame]
  exact Checksum.parse?_render _

/-- Whatever byte of a value is replaced in a written message, by whatever byte other than
the delimiter, one fault comes out and no message. -/
theorem corruption_detected (d : Dictionary) (m : Message) (bytes : Bytes)
    (hencode : m.encode = .ok bytes) (i : Nat) (b : UInt8) (hi : Record.IsInValue bytes i)
    (hb : b ≠ Ascii.soh) (hne : bytes[i]? ≠ some b) :
    ∃ fault, decodeAll d (bytes.set i b) = [.error fault] := by
  obtain ⟨hcheck, rfl⟩ := encode_eq_ok_iff.1 hencode
  rw [← render_frame hcheck] at hi hne ⊢
  obtain ⟨c, hbefore, hafter⟩ := Record.exists_byteChange
    (fun r hr => ((frame hcheck).isWritable_records r hr).soh_not_mem) hi hb hne
  obtain ⟨f, hrecords, hsum⟩ := Frame.exists_after c hbefore (isSummed_frame hcheck)
  rw [← hafter, ← hrecords, Frame.decodeAll_render]
  cases hdelivery : f.delivery d with
  | ok received => exact absurd (Frame.parse?_declared_of_delivery hdelivery) hsum
  | error fault => exact ⟨fault, rfl⟩

theorem corruption_detected_sample :
    sampleOrder.encode = .ok sampleOrder.render ∧ Record.IsInValue sampleOrder.render 2 ∧
      (0x47 : UInt8) ≠ Ascii.soh ∧ sampleOrder.render[2]? ≠ some 0x47 ∧
      ∃ fault, decodeAll Dictionary.usual (sampleOrder.render.set 2 0x47) = [.error fault] := by
  have hencode : sampleOrder.encode = .ok sampleOrder.render := rfl
  have hi : Record.IsInValue sampleOrder.render 2 :=
    ⟨[], sampleOrder.firstRecord.toBytes, (Record.cut sampleOrder.render).tail, 2,
      by decide +kernel, rfl, by decide, by decide⟩
  have hb : (0x47 : UInt8) ≠ Ascii.soh := by decide
  have hne : sampleOrder.render[2]? ≠ some 0x47 := by decide
  exact ⟨hencode, hi, hb, hne,
    corruption_detected Dictionary.usual sampleOrder _ hencode 2 0x47 hi hb hne⟩

end Message

end FixEngine
