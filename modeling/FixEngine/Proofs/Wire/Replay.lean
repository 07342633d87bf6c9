import FixEngine.Proofs.Dictionary.Stability
import FixEngine.Proofs.Wire.Flattening
import FixEngine.Proofs.Wire.Placement

/-!
# Taking up a field again

The record that a field is written as is taken up like the one that it was read from: it
is placed in the same group, and it is read as the same value.
-/

namespace FixEngine

/-- The value was read from bytes that may stand on the wire. -/
def Field.IsRead (d : Dictionary) (f : Field) : Prop :=
  ∃ bytes, Bytes.IsWritable bytes ∧ d.read f.tag bytes = .ok f.value

namespace Field

variable {d : Dictionary} {f : Field} {r : Record}

theorem IsRead.isWritable (h : f.IsRead d) : Bytes.IsWritable f.value.toBytes := by
  obtain ⟨bytes, hbytes, hread⟩ := h
  exact Value.isWritable_of_read hread hbytes

theorem IsRead.readsBack (h : f.IsRead d) (hyear : f.value.HasFourDigits) : f.ReadsBack d := by
  obtain ⟨bytes, -, hread⟩ := h
  exact Value.read_toBytes hread hyear

theorem isRead_of_readField (h : BodyDraft.readField d r = .ok f)
    (hr : Bytes.IsWritable r.value) : f.IsRead d := by
  obtain ⟨value, hread, rfl⟩ := BodyDraft.exists_read_of_readField h
  exact ⟨r.value, hr, hread⟩

end Field

namespace BodyDraft

variable {d : Dictionary} {draft next : BodyDraft} {r : Record}

/-- A body that can be closed behaves like the entries that it becomes. -/
theorem settles_nest (h : draft.IsSound) {entries : List Entry}
    (hclose : draft.close = .ok entries) : draft.Settles d ⟨[], entries⟩ draft.nest := by
  induction draft using closingInduction with
  | nil entries' =>
    rw [close_nil] at hclose
    cases hclose
    exact .refl _ []
  | cons g outer entries' ih =>
    rw [close_cons, bind_eq_ok_iff] at hclose
    obtain ⟨entry, hentry, hclose⟩ := hclose
    have houter : HasPlace ⟨outer, entries'⟩ := h.outer
    have hrest := ih entry (hasPlace_attach houter entry).isSound hclose
    obtain ⟨hcomplete, rfl⟩ := close_eq_ok hentry
    have hnest : nest ⟨g :: outer, entries'⟩ = [g.level] ++ nest ⟨outer, entries'⟩ := rfl
    rw [nest_attach houter] at hrest
    rw [hnest]
    exact (settles_close (h.groups g List.mem_cons_self) hcomplete).trans hrest

/-- The field that a record adds has the tag of the record, may stand on the wire if the
record may, and is read from its own record as well. -/
structure Adds (d : Dictionary) (draft : BodyDraft) (r : Record) (next : BodyDraft)
    (f : Field) : Prop where
  tag : f.tag = r.tag
  fields : next.fields = draft.fields ++ [f]
  isWritable : Bytes.IsWritable r.value → Bytes.IsWritable f.value.toBytes
  place : f.value.HasFourDigits → draft.place d f.record = .ok next

theorem exists_adds_of_put (hd : d.IsRegistered) (h : draft.IsSound)
    (haccepts : draft.Accepts r.tag) (hput : draft.put d r = .ok next) :
    ∃ f, draft.Adds d r next f := by
  rw [put] at hput
  split at hput
  · next layout hlayout =>
    obtain ⟨g, hopen, hnext⟩ := bind_eq_ok_iff.1 hput
    rw [openGroup] at hopen
    split at hopen
    · next n hcount =>
      cases hopen
      cases hnext
      have hn := Value.le_of_readCount hcount
      have htag := hd.countTag_of_group? hlayout
      refine ⟨Entry.countField layout.countTag n, htag, ?_, ?_, ?_⟩
      · exact fields_cons _ _ _
      · intro _
        exact Numeral.isWritable_ofInt _
      · intro _
        have hgroup : d.group? (Entry.countField layout.countTag n).record.tag draft.nest.scope =
            some layout := by
          rw [← hlayout, ← htag]
          rfl
        have haccepts' : draft.Accepts (Entry.countField layout.countTag n).record.tag :=
          htag ▸ haccepts
        rw [place_of_accepts h haccepts', put, hgroup]
        dsimp only
        rw [openGroup_countField layout layout.countTag hn]
        rfl
    · contradiction
  · next hlayout =>
    obtain ⟨f, hread, hnext⟩ := bind_eq_ok_iff.1 hput
    cases hnext
    have htag := tag_of_readField hread
    refine ⟨f, htag, fields_putField draft f, ?_, ?_⟩
    · intro hr
      exact (Field.isRead_of_readField hread hr).isWritable
    · intro hyear
      obtain ⟨value, hvalue, rfl⟩ := exists_read_of_readField hread
      have hback : Field.ReadsBack d ⟨r.tag, value⟩ := Value.read_toBytes hvalue hyear
      have hgroup : d.group? (Field.record ⟨r.tag, value⟩).tag draft.nest.scope = none := hlayout
      have haccepts' : draft.Accepts (Field.record ⟨r.tag, value⟩).tag := haccepts
      rw [place_of_accepts h haccepts', put, hgroup]
      dsimp only
      rw [readField_record hback]
      rfl

/-- A record that is placed in a body adds a field. -/
theorem exists_adds_of_place (hd : d.IsRegistered) (h : draft.IsSound)
    (hplace : draft.place d r = .ok next) : ∃ f, draft.Adds d r next f := by
  induction draft using closingInduction with
  | nil entries =>
    have haccepts : Accepts ⟨[], entries⟩ r.tag := by simp [Accepts]
    rw [place_of_accepts h haccepts] at hplace
    exact exists_adds_of_put hd h haccepts hplace
  | cons g outer entries ih =>
    cases htag : g.level.accepts r.tag with
    | true =>
      have haccepts : Accepts ⟨g :: outer, entries⟩ r.tag := by simp [Accepts, htag]
      rw [place_of_accepts h haccepts] at hplace
      exact exists_adds_of_put hd h haccepts hplace
    | false =>
      have hg : g.IsSound := h.groups g List.mem_cons_self
      have houter : HasPlace ⟨outer, entries⟩ := h.outer
      rw [place_of_refuses hg htag, bind_eq_ok_iff] at hplace
      obtain ⟨entry, hclose, hplace⟩ := hplace
      obtain ⟨f, hf⟩ := ih entry (hasPlace_attach houter entry).isSound hplace
      refine ⟨f, hf.tag, ?_, hf.isWritable, ?_⟩
      · rw [hf.fields, fields_attach, fields_cons, OpenGroup.fields_of_close hclose]
      · intro hyear
        have hrefuses : g.level.accepts f.record.tag = false := by
          rw [← htag, ← hf.tag]
          rfl
        rw [place_of_refuses hg hrefuses, hclose]
        exact hf.place hyear

end BodyDraft

end FixEngine
