import FixEngine.Document.Forms
import FixEngine.Proofs.Dictionary.Interpretation
import FixEngine.Proofs.Wire.BodyRun
import Mathlib.Data.List.Forall2

/-!
# The body laid out flat

Closing a group only moves it, and a record that is put into a body comes after
all that is there.  So the records of a body laid out flat are those that arrived,
in the order in which they arrived.
-/

namespace FixEngine

namespace Nest

/-- What stands in a message for the records that arrive: for a record that opens
a group the number of instances that it announces, and for any other record of the
body its value in canonical form. -/
inductive Shows (d : Dictionary) : Nest → List Bytes → List Record → Prop
  | nil (nest : Nest) : Shows d nest [] []
  | aside {nest : Nest} {raw : Bytes} {r : Record} {rest : List Bytes} {shown : List Record}
      (hparse : Record.parse raw = .ok r) (haside : (r.tag.isHeader || r.tag.isTrailer) = true)
      (hrest : Shows d (nest.after d r) rest shown) : Shows d nest (raw :: rest) shown
  | opened {nest : Nest} {raw : Bytes} {r : Record} {layout : Layout} {n : Nat}
      {rest : List Bytes} {shown : List Record} (hparse : Record.parse raw = .ok r)
      (hheader : r.tag.isHeader = false) (htrailer : r.tag.isTrailer = false)
      (hlayout : d.group? r.tag (nest.leftBy r.tag).scope = some layout)
      (hcount : Value.readCount r.value = .ok n)
      (hrest : Shows d (nest.after d r) rest shown) :
      Shows d nest (raw :: rest) (⟨layout.countTag, Numeral.ofNat n⟩ :: shown)
  | held {nest : Nest} {raw : Bytes} {r : Record} {value : Value} {rest : List Bytes}
      {shown : List Record} (hparse : Record.parse raw = .ok r)
      (hheader : r.tag.isHeader = false) (htrailer : r.tag.isTrailer = false)
      (hlayout : d.group? r.tag (nest.leftBy r.tag).scope = none)
      (hread : d.read r.tag r.value = .ok value)
      (hrest : Shows d (nest.after d r) rest shown) :
      Shows d nest (raw :: rest) (⟨r.tag, value.toBytes⟩ :: shown)

/-- The records that arrive determine what stands for them. -/
theorem Shows.unique {d : Dictionary} {nest : Nest} {records : List Bytes}
    {shown shown' : List Record} (h : Shows d nest records shown)
    (h' : Shows d nest records shown') : shown = shown' := by
  induction h generalizing shown' with
  | nil =>
    cases h'
    rfl
  | aside hparse haside _ ih =>
    cases h' with
    | aside hparse' _ hrest =>
      cases hparse.symm.trans hparse'
      exact ih hrest
    | opened hparse' hheader htrailer | held hparse' hheader htrailer =>
      cases hparse.symm.trans hparse'
      rw [hheader, htrailer] at haside
      contradiction
  | opened hparse hheader htrailer hlayout hcount _ ih =>
    cases h' with
    | aside hparse' haside =>
      cases hparse.symm.trans hparse'
      rw [hheader, htrailer] at haside
      contradiction
    | opened hparse' _ _ hlayout' hcount' hrest =>
      cases hparse.symm.trans hparse'
      cases hlayout.symm.trans hlayout'
      cases hcount.symm.trans hcount'
      rw [ih hrest]
    | held hparse' _ _ hlayout' =>
      cases hparse.symm.trans hparse'
      rw [hlayout] at hlayout'
      contradiction
  | held hparse hheader htrailer hlayout hread _ ih =>
    cases h' with
    | aside hparse' haside =>
      cases hparse.symm.trans hparse'
      rw [hheader, htrailer] at haside
      contradiction
    | opened hparse' _ _ hlayout' =>
      cases hparse.symm.trans hparse'
      rw [hlayout] at hlayout'
      contradiction
    | held hparse' _ _ _ hread' hrest =>
      cases hparse.symm.trans hparse'
      cases hread.symm.trans hread'
      rw [ih hrest]

/-- There is one tag for each record of the body, its own or that of the layout under it. -/
theorem Shows.tags {d : Dictionary} {nest : Nest} {records : List Bytes} {shown : List Record}
    (h : Shows d nest records shown) :
    List.Forall₂ d.ShowsTag ((Record.bodyOf records).map Record.tag) (shown.map Record.tag) := by
  induction h with
  | nil => exact .nil
  | aside hparse haside _ ih =>
    rw [Record.bodyOf_cons_of_aside hparse haside]
    exact ih
  | opened hparse hheader htrailer hlayout _ _ ih =>
    rw [Record.bodyOf_cons_of_body hparse hheader htrailer]
    exact .cons (Dictionary.showsTag_of_group? hlayout) ih
  | held hparse hheader htrailer _ _ _ ih =>
    rw [Record.bodyOf_cons_of_body hparse hheader htrailer]
    exact .cons .own ih

end Nest

namespace OpenGroup

/-- The fields of a group that is open, in wire order. -/
def fields (g : OpenGroup) : List Field :=
  Entry.countField g.layout.countTag g.declared :: Entry.fieldsOfInstances g.instances

theorem fields_of_close {g : OpenGroup} {entry : Entry} (h : g.close = .ok entry) :
    entry.fields = g.fields := by
  obtain ⟨hcomplete, rfl⟩ := BodyDraft.close_eq_ok h
  rw [Entry.fields, hcomplete]
  rfl

@[simp]
theorem fields_begin (g : OpenGroup) (f : Field) : (g.begin f).fields = g.fields ++ [f] := by
  rw [fields, instances_begin, Entry.fieldsOfInstances_append]
  rfl

@[simp]
theorem fields_add (g : OpenGroup) (entry : Entry) :
    (g.add entry).fields = g.fields ++ entry.fields := by
  cases hcurrent : g.current <;>
    simp [fields, instances, add, hcurrent, Entry.fieldsOfInstances, Entry.fieldsOf]

end OpenGroup

namespace BodyDraft

variable {d : Dictionary} {draft last : BodyDraft} {records : List Bytes}

/-- The fields of a body that is still arriving, in wire order. -/
def fields (draft : BodyDraft) : List Field :=
  Entry.fieldsOf draft.entries ++ draft.groups.reverse.flatMap OpenGroup.fields

@[simp]
theorem fields_nil (entries : List Entry) : fields ⟨[], entries⟩ = Entry.fieldsOf entries := by
  simp [fields]

theorem fields_cons (g : OpenGroup) (outer : List OpenGroup) (entries : List Entry) :
    fields ⟨g :: outer, entries⟩ = fields ⟨outer, entries⟩ ++ g.fields := by
  simp [fields]

@[simp]
theorem fields_attach (draft : BodyDraft) (entry : Entry) :
    (draft.attach entry).fields = draft.fields ++ entry.fields := by
  obtain ⟨groups, entries⟩ := draft
  cases groups with
  | nil => simp [attach, Entry.fieldsOf]
  | cons g outer => rw [attach, fields_cons, fields_cons, OpenGroup.fields_add, List.append_assoc]

@[simp]
theorem fields_putField (draft : BodyDraft) (f : Field) :
    (draft.putField f).fields = draft.fields ++ [f] := by
  obtain ⟨groups, entries⟩ := draft
  cases groups with
  | nil => exact fields_attach _ _
  | cons g outer =>
    rw [putField]
    split
    · rw [fields_cons, fields_cons, OpenGroup.fields_begin, List.append_assoc]
    · exact fields_attach _ _

/-- Closing groups leaves their fields where they are. -/
theorem ClosesTo.fields_eq (h : draft.ClosesTo last) : last.fields = draft.fields := by
  induction h with
  | refl => rfl
  | step hclose _ ih => rw [ih, fields_attach, fields_cons, OpenGroup.fields_of_close hclose]

theorem exists_read_of_readField {r : Record} {f : Field} (h : readField d r = .ok f) :
    ∃ value, d.read r.tag r.value = .ok value ∧ f = ⟨r.tag, value⟩ := by
  rw [readField] at h
  split at h
  · next value hread => exact ⟨value, hread, (Except.ok.inj h).symm⟩
  · contradiction

theorem record_countField (countTag : Tag) {bytes : Bytes} {n : Nat}
    (h : Value.readCount bytes = .ok n) :
    (Entry.countField countTag n).record = ⟨countTag, Numeral.ofNat n⟩ := by
  rw [Field.record, Value.toBytes_countField countTag (Value.le_of_readCount h)]
  rfl

/-- The fields of a body are those that were there and those of the records that
arrived since, in order. -/
theorem Run.exists_shows (h : Run d draft records last) :
    ∃ shown, draft.nest.Shows d records shown ∧
      last.fields.map Field.record = draft.fields.map Field.record ++ shown := by
  induction h with
  | nil draft => exact ⟨[], .nil _, (List.append_nil _).symm⟩
  | @cons draft next last raw r rest hparse hsound hfollows hnest hrest ih =>
    -- The fields grow at their end only, so what the rest shows comes after this record.
    obtain ⟨shown, hshows, hfields⟩ := ih
    rw [hnest] at hshows
    cases hfollows with
    | header hheader =>
      exact ⟨shown, .aside hparse (by rw [hheader]; rfl) hshows, hfields⟩
    | trailer hheader htrailer hcloses =>
      rw [hcloses.fields_eq] at hfields
      exact ⟨shown, .aside hparse (by rw [htrailer, Bool.or_true]) hshows, hfields⟩
    | @opened settled layout n hheader htrailer hcloses hsettled hlayout hcount =>
      rw [hsettled] at hlayout
      refine ⟨_, .opened hparse hheader htrailer hlayout hcount hshows, ?_⟩
      have hstart : (OpenGroup.start layout n).fields = [Entry.countField layout.countTag n] := rfl
      rw [hfields, fields_cons, hstart, List.map_append, List.map_singleton,
        record_countField _ hcount, ← hcloses.fields_eq, List.append_assoc, List.singleton_append]
    | @held settled f hheader htrailer hcloses hsettled _ hlayout hread =>
      rw [hsettled] at hlayout
      obtain ⟨value, hvalue, rfl⟩ := exists_read_of_readField hread
      refine ⟨_, .held hparse hheader htrailer hlayout hvalue hshows, ?_⟩
      rw [hfields, fields_putField, List.map_append, List.map_singleton, ← hcloses.fields_eq,
        List.append_assoc, List.singleton_append]
      rfl

end BodyDraft

namespace Assembler

variable {d : Dictionary} {records : List Bytes} {k : Nat} {m : Message}

/-- The body of a message that is handed over, laid out flat, is what its records show in the
order in which they arrived.  Nothing is lost, and nothing comes twice or elsewhere.  There is
one tag for each record of the body: its own, unless the record opens a group at the top whose
layout stands under a tag that is not its own. -/
theorem bodyRecords_of_emits (h : Emits d records k m) :
    ∃ s : Span records k, s.IsSealed d ∧ Nest.Shows d [] s.inner m.bodyRecords ∧
      List.Forall₂ d.ShowsTag ((Record.bodyOf s.inner).map Record.tag)
        (m.bodyRecords.map Record.tag) ∧
      (d.IsRegistered →
        m.bodyRecords.map Record.tag = (Record.bodyOf s.inner).map Record.tag) := by
  obtain ⟨s, hsealed, body, hrun, -, hcloses⟩ := exists_run_of_emits h
  obtain ⟨shown, hshows, hfields⟩ := hrun.exists_shows
  have hbody : m.bodyRecords = shown := by
    have hclosed := hcloses.fields_eq
    rw [BodyDraft.fields_nil] at hclosed
    rw [Message.bodyRecords, hclosed, hfields]
    rfl
  rw [← hbody] at hshows
  refine ⟨s, hsealed, hshows, hshows.tags, fun hd => ?_⟩
  have hsame : List.Forall₂ Eq ((Record.bodyOf s.inner).map Record.tag)
      (m.bodyRecords.map Record.tag) :=
    hshows.tags.imp fun _ _ hshown => hd.eq_of_showsTag hshown
  rw [List.forall₂_eq_eq_eq] at hsame
  exact hsame.symm

/-- A header record stands inside a group of parties that has a group of its own. -/
theorem bodyRecords_of_emits_sample :
    ∃ m, Emits .usual sampleRecords 9 m ∧
      m.bodyRecords.map Record.tag = [453, 448, 802, 523, 803, 58] ∧
      ∃ s : Span sampleRecords 9, s.IsSealed .usual ∧
        Nest.Shows .usual [] s.inner m.bodyRecords ∧
        m.bodyRecords.map Record.tag = (Record.bodyOf s.inner).map Record.tag := by
  obtain ⟨m, hemits, htags⟩ : ∃ m, Emits .usual sampleRecords 9 m ∧
      m.bodyRecords.map Record.tag = [453, 448, 802, 523, 803, 58] := ⟨_, rfl, rfl⟩
  obtain ⟨s, hsealed, hshows, -, hsame⟩ := bodyRecords_of_emits hemits
  exact ⟨m, hemits, htags, s, hsealed, hshows, hsame (Dictionary.isRegistered_standard .fix44)⟩

/-- The records of a body with one group. -/
def groupRecords : List Bytes :=
  ["8=FIX.4.4", "35=D", "453=1", "448=X", "10=076"].map Utf8.encode

/-- All of these records. -/
def groupSpan : Span groupRecords 4 where
  before := []
  first := Utf8.encode "8=FIX.4.4"
  inner := ["35=D", "453=1", "448=X"].map Utf8.encode
  last := Utf8.encode "10=076"
  rest := []
  split := rfl
  index := rfl
  isInner := by
    unfold Record.IsInner
    decide +kernel

/-- The document of a dictionary that has the layout of group 454 under the tag 453. -/
def misplacedLayout : Document :=
  .object [("version", .text "Fix44"), ("overrides", .object []),
    ("groups", .object [("453", .object [("count_tag", .integer 454),
      ("name", .text "NoSecurityAltID"), ("delimiter_tag", .integer 448),
      ("members", .list [.integer 448]), ("groups", .list [])])])]

/-- A dictionary that is read from a document may have a layout under a tag that is not its
own.  The count tag of the layout then stands in the message for the tag that arrived. -/
theorem exists_count_tag_changed :
    ∃ (d : Dictionary) (m : Message), Dictionary.ofDocument? misplacedLayout = some d ∧
      Emits d groupRecords 4 m ∧ groupSpan.IsSealed d ∧
      (Record.bodyOf groupSpan.inner).map Record.tag = [453, 448] ∧
      m.bodyRecords.map Record.tag = [454, 448] := by
  obtain ⟨d, hd, m, hemits, htags⟩ : ∃ d, Dictionary.ofDocument? misplacedLayout = some d ∧
      ∃ m, Emits d groupRecords 4 m ∧ m.bodyRecords.map Record.tag = [454, 448] :=
    ⟨_, rfl, _, rfl, rfl⟩
  have hsealed : groupSpan.IsSealed d := isSealed_of_emits hemits groupSpan rfl rfl
  exact ⟨d, m, hd, hemits, hsealed, rfl, htags⟩

end Assembler

end FixEngine
