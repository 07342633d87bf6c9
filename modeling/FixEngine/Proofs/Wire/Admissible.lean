import FixEngine.Proofs.Text.Lossy
import FixEngine.Proofs.Wire.Writing
import FixEngine.Wire.Buffer

/-!
# Messages that may be written

`Message.IsEncodable` says in terms of texts and tags which messages the encoder takes:
the version, the type and both companies are given, no text is empty or holds the
delimiter, and no tag of the frame or of a slot stands among the fields, however deep.
The checks of the encoder say the same, whether they walk through the groups or along
the fields laid out flat.
-/

namespace FixEngine

/-! ### Texts and tags -/

/-- The text may stand as a value on the wire. -/
structure Utf8.IsWritable (text : String) : Prop where
  ne_empty : text ≠ ""
  delimiter_not_mem : Utf8.delimiter ∉ text.toList

theorem Utf8.isWritable_encode_iff {text : String} :
    Bytes.IsWritable (Utf8.encode text) ↔ Utf8.IsWritable text := by
  constructor
  · rintro ⟨hne, hsoh⟩
    exact ⟨fun hempty => hne ((encode_eq_nil_iff text).2 hempty),
      fun hmem => hsoh ((soh_mem_encode_iff text).2 hmem)⟩
  · rintro ⟨hne, hsoh⟩
    exact ⟨fun hnil => hne ((encode_eq_nil_iff text).1 hnil),
      fun hmem => hsoh ((soh_mem_encode_iff text).1 hmem)⟩

theorem Utf8.isWritable_singleton_iff {c : Char} :
    Utf8.IsWritable (String.ofList [c]) ↔ c ≠ Utf8.delimiter := by
  constructor
  · rintro ⟨-, hsoh⟩ rfl
    rw [String.toList_ofList] at hsoh
    exact hsoh (List.mem_singleton_self _)
  · intro h
    refine ⟨fun hempty => ?_, ?_⟩
    · exact List.cons_ne_nil c [] (String.ofList_inj.1 (hempty.trans rfl))
    · rw [String.toList_ofList]
      exact fun hmem => h (List.mem_singleton.1 hmem).symm

theorem checkText_iff {tag : Tag} {text : String} :
    checkText tag text = .ok () ↔ Utf8.IsWritable text :=
  checkText_eq_ok_iff.trans Utf8.isWritable_encode_iff

theorem requireText_iff {tag : Tag} {text : String} :
    requireText tag text = .ok () ↔ Utf8.IsWritable text :=
  requireText_eq_ok_iff.trans Utf8.isWritable_encode_iff

/-- The tags around the records of a message, and those that have a slot. -/
def Tag.reserved : List Tag := [8, 9, 10, 35, 49, 56, 34, 50, 57, 142, 143, 52]

theorem Slot.ofTag?_eq_none_iff {tag : Tag} :
    Slot.ofTag? tag = none ↔ tag ∉ Slot.all.map Slot.tag := by
  simp only [ofTag?, List.find?_eq_none, decide_eq_true_eq, List.mem_map, not_exists, not_and]

theorem Tag.checkFree_iff {tag : Tag} : tag.checkFree = .ok () ↔ tag ∉ reserved := by
  have hreserved : reserved.Perm (beginString :: checkSum :: Slot.all.map Slot.tag) := by decide
  rw [checkFree_eq_ok_iff, hreserved.mem_iff, List.mem_cons, List.mem_cons, not_or, not_or,
    Slot.ofTag?_eq_none_iff]

namespace Entry

/-! ### Entries at any depth -/

/-- The entry stands among others or, at any depth, in an instance of a group among
them. -/
inductive Within (entry : Entry) : List Entry → Prop
  | here {entries : List Entry} (hmem : entry ∈ entries) : Within entry entries
  | inside {entries inner : List Entry} {countTag : Tag} {instances : List (List Entry)}
      (hgroup : .group countTag instances ∈ entries) (hinner : inner ∈ instances)
      (hwithin : Within entry inner) : Within entry entries

/-- The entry may be written: its tag is free, and its text or character may stand on
the wire. -/
structure IsAllowed (entry : Entry) : Prop where
  tag : entry.tag ∉ Tag.reserved
  text : ∀ tag text, entry = .field ⟨tag, .text text⟩ → Utf8.IsWritable text
  char : ∀ tag c, entry = .field ⟨tag, .char c⟩ → c ≠ Utf8.delimiter

variable {entry : Entry} {entries rest : List Entry} {instances : List (List Entry)}

theorem not_within_nil : ¬entry.Within [] := by
  rintro (hmem | ⟨hgroup, -, -⟩)
  · exact List.not_mem_nil hmem
  · exact List.not_mem_nil hgroup

theorem within_cons_iff {first : Entry} :
    entry.Within (first :: rest) ↔ entry.Within [first] ∨ entry.Within rest := by
  constructor
  · rintro (hmem | ⟨hgroup, hinner, hwithin⟩)
    · exact (List.mem_cons.1 hmem).imp (fun h => .here (List.mem_singleton.2 h)) .here
    · exact (List.mem_cons.1 hgroup).imp
        (fun h => .inside (List.mem_singleton.2 h) hinner hwithin)
        (fun h => .inside h hinner hwithin)
  · rintro ((hmem | ⟨hgroup, hinner, hwithin⟩) | (hmem | ⟨hgroup, hinner, hwithin⟩))
    · exact .here (List.mem_cons.2 (.inl (List.mem_singleton.1 hmem)))
    · exact .inside (List.mem_cons.2 (.inl (List.mem_singleton.1 hgroup))) hinner hwithin
    · exact .here (List.mem_cons_of_mem first hmem)
    · exact .inside (List.mem_cons_of_mem first hgroup) hinner hwithin

theorem within_field_iff {f : Field} : entry.Within [.field f] ↔ entry = .field f := by
  constructor
  · rintro (hmem | ⟨hgroup, -, -⟩)
    · exact List.mem_singleton.1 hmem
    · exact Entry.noConfusion (List.mem_singleton.1 hgroup)
  · rintro rfl
    exact .here (List.mem_singleton_self _)

theorem within_group_iff {countTag : Tag} :
    entry.Within [.group countTag instances] ↔
      entry = .group countTag instances ∨ ∃ inner ∈ instances, entry.Within inner := by
  constructor
  · rintro (hmem | ⟨hgroup, hinner, hwithin⟩)
    · exact .inl (List.mem_singleton.1 hmem)
    · obtain ⟨-, rfl⟩ := Entry.group.inj (List.mem_singleton.1 hgroup)
      exact .inr ⟨_, hinner, hwithin⟩
  · rintro (rfl | ⟨inner, hinner, hwithin⟩)
    · exact .here (List.mem_singleton_self _)
    · exact .inside (List.mem_singleton_self _) hinner hwithin

theorem isAllowed_group_iff {countTag : Tag} :
    (group countTag instances).IsAllowed ↔ countTag ∉ Tag.reserved :=
  ⟨fun h => h.tag, fun h => ⟨h, nofun, nofun⟩⟩

theorem isAllowed_field_iff {f : Field} : (field f).IsAllowed ↔ f.check = .ok () := by
  have heq {value : Value} (hvalue : f.value = value) : field f = field ⟨f.tag, value⟩ := by
    rw [← hvalue]
  rw [Field.check_eq_ok_iff, Tag.checkFree_iff]
  constructor
  · intro h
    refine ⟨h.tag, fun text hvalue => ?_, fun c hvalue => ?_⟩
    · exact checkText_iff.2 (h.text f.tag text (heq hvalue))
    · exact checkText_iff.2 (Utf8.isWritable_singleton_iff.2 (h.char f.tag c (heq hvalue)))
  · rintro ⟨htag, htext, hchar⟩
    refine ⟨htag, fun tag text hf => ?_, fun tag c hf => ?_⟩
    · exact checkText_iff.1 (htext text (congrArg Field.value (Entry.field.inj hf)))
    · exact Utf8.isWritable_singleton_iff.1
        (checkText_iff.1 (hchar c (congrArg Field.value (Entry.field.inj hf))))

/-! ### Checking -/

mutual

/-- The check of an entry takes in all that stands in it. -/
theorem check_iff : ∀ entry : Entry,
    entry.check = .ok () ↔ ∀ e : Entry, e.Within [entry] → e.IsAllowed
  | .field f => by
    rw [check, ← isAllowed_field_iff]
    exact ⟨fun h e he => within_field_iff.1 he ▸ h, fun h => h _ (within_field_iff.2 rfl)⟩
  | .group countTag instances => by
    rw [check, check_bind_eq_ok_iff, checkInstances_iff instances, Tag.checkFree_iff]
    constructor
    · rintro ⟨htag, hinstances⟩ e he
      rcases within_group_iff.1 he with rfl | ⟨inner, hinner, hwithin⟩
      · exact isAllowed_group_iff.2 htag
      · exact hinstances inner hinner e hwithin
    · intro h
      exact ⟨isAllowed_group_iff.1 (h _ (within_group_iff.2 (.inl rfl))),
        fun inner hinner e he => h e (within_group_iff.2 (.inr ⟨inner, hinner, he⟩))⟩

theorem checkAll_iff : ∀ entries : List Entry,
    checkAll entries = .ok () ↔ ∀ e : Entry, e.Within entries → e.IsAllowed
  | [] => iff_of_true rfl fun _ h => absurd h not_within_nil
  | entry :: rest => by
    rw [checkAll, check_bind_eq_ok_iff, check_iff entry, checkAll_iff rest]
    constructor
    · rintro ⟨hfirst, hrest⟩ e he
      exact (within_cons_iff.1 he).elim (hfirst e) (hrest e)
    · intro h
      exact ⟨fun e he => h e (within_cons_iff.2 (.inl he)),
        fun e he => h e (within_cons_iff.2 (.inr he))⟩

theorem checkInstances_iff : ∀ instances : List (List Entry),
    checkInstances instances = .ok () ↔
      ∀ inner ∈ instances, ∀ e : Entry, e.Within inner → e.IsAllowed
  | [] => iff_of_true rfl (List.forall_mem_nil _)
  | entries :: rest => by
    rw [checkInstances, check_bind_eq_ok_iff, checkAll_iff entries, checkInstances_iff rest,
      List.forall_mem_cons]

end

/-- The count of a group is an integer, of which the tag alone is checked. -/
theorem check_countField (countTag : Tag) (count : Nat) :
    (countField countTag count).check = countTag.checkFree := by
  rw [Field.check, countField]
  cases countTag.checkFree <;> rfl

mutual

/-- Walking through an entry checks the same as going along its fields. -/
theorem check_eq_forM : ∀ entry : Entry, entry.check = entry.fields.forM Field.check
  | .field f => by
    rw [check, fields, forM_singleton]
  | .group countTag instances => by
    have hcons : (countField countTag instances.length :: fieldsOfInstances instances).forM
        Field.check = (countField countTag instances.length).check >>= fun _ =>
          (fieldsOfInstances instances).forM Field.check := rfl
    rw [check, fields, checkInstances_eq_forM instances, hcons, check_countField]

theorem checkAll_eq_forM : ∀ entries : List Entry,
    checkAll entries = (fieldsOf entries).forM Field.check
  | [] => rfl
  | entry :: rest => by
    rw [checkAll, fieldsOf, forM_append, check_eq_forM entry, checkAll_eq_forM rest]

theorem checkInstances_eq_forM : ∀ instances : List (List Entry),
    checkInstances instances = (fieldsOfInstances instances).forM Field.check
  | [] => rfl
  | entries :: rest => by
    rw [checkInstances, fieldsOfInstances, forM_append, checkAll_eq_forM entries,
      checkInstances_eq_forM rest]

end

theorem forM_check (entries : List Entry) :
    entries.forM check = (fieldsOf entries).forM Field.check := by
  rw [← checkAll_eq_forM]
  induction entries with
  | nil => rfl
  | cons entry rest ih => exact congrArg (fun checked => entry.check >>= fun _ => checked) ih

/-! ### Writing -/

theorem render_fieldsOf (entries : List Entry) :
    Record.render ((fieldsOf entries).map Field.record) =
      entries.flatMap fun entry => Record.render (entry.fields.map Field.record) := by
  induction entries with
  | nil => rfl
  | cons entry rest ih =>
    rw [fieldsOf, List.map_append, Record.render_append, ih, List.flatMap_cons]

mutual

/-- Walking through an entry writes the records of its fields. -/
theorem write_eq : ∀ (buffer : Bytes) (entry : Entry),
    entry.write buffer = buffer ++ Record.render (entry.fields.map Field.record)
  | buffer, .field f => by
    rw [write, fields, List.map_singleton, Record.render_cons, Record.render_nil, List.append_nil]
  | buffer, .group countTag instances => by
    rw [write, writeInstances_eq, fields, List.map_cons, Record.render_cons, List.append_assoc]

theorem writeAll_eq : ∀ (buffer : Bytes) (entries : List Entry),
    writeAll buffer entries = buffer ++ Record.render ((fieldsOf entries).map Field.record)
  | buffer, [] => (List.append_nil buffer).symm
  | buffer, entry :: rest => by
    rw [writeAll, writeAll_eq, write_eq buffer entry, fieldsOf, List.map_append,
      Record.render_append, List.append_assoc]

theorem writeInstances_eq : ∀ (buffer : Bytes) (instances : List (List Entry)),
    writeInstances buffer instances =
      buffer ++ Record.render ((fieldsOfInstances instances).map Field.record)
  | buffer, [] => (List.append_nil buffer).symm
  | buffer, entries :: rest => by
    rw [writeInstances, writeInstances_eq, writeAll_eq buffer entries, fieldsOfInstances,
      List.map_append, Record.render_append, List.append_assoc]

end

end Entry

/-! ### Messages -/

namespace Header

variable {h : Header}

/-- The slots of a header may be written. -/
structure IsEncodable (h : Header) : Prop where
  msgType : ∃ t, h.msgType = some t ∧ Utf8.IsWritable t.text
  beginString : Utf8.IsWritable h.beginString
  senderCompId : Utf8.IsWritable h.senderCompId
  targetCompId : Utf8.IsWritable h.targetCompId
  senderSubId : ∀ text, h.senderSubId = some text → Utf8.IsWritable text
  targetSubId : ∀ text, h.targetSubId = some text → Utf8.IsWritable text
  senderLocationId : ∀ text, h.senderLocationId = some text → Utf8.IsWritable text
  targetLocationId : ∀ text, h.targetLocationId = some text → Utf8.IsWritable text

/-- An optional text passes its check if it may be written when it is there. -/
theorem checkOptional_iff {tag : Tag} {text : Option String} :
    text.forM (checkText tag) = .ok () ↔ ∀ s, text = some s → Utf8.IsWritable s := by
  cases text with
  | none => exact iff_of_true rfl nofun
  | some s =>
    have hforM : (some s).forM (checkText tag) = checkText tag s := rfl
    rw [hforM, checkText_iff]
    exact ⟨fun h s' hs => Option.some.inj hs ▸ h, fun h => h s rfl⟩

theorem check_iff : h.check = .ok () ↔ h.IsEncodable := by
  cases htype : h.msgType with
  | none =>
    have hrefused : h.check = .error (.missingField Tag.msgType) := by
      rw [check, htype]
      rfl
    rw [hrefused]
    constructor
    · rintro ⟨⟩
    · intro hencodable
      obtain ⟨t, ht, -⟩ := hencodable.msgType
      rw [htype] at ht
      contradiction
  | some t =>
    simp only [check, htype, check_bind_eq_ok_iff, forM_eq_ok_iff, requireText_iff, partyDetails,
      List.forall_mem_cons, checkOptional_iff]
    constructor
    · rintro ⟨hbegin, hmsgType, hsender, htarget, hsub, htargetSub, hplace, htargetPlace, -⟩
      exact ⟨⟨t, htype, hmsgType⟩, hbegin, hsender, htarget, hsub, htargetSub, hplace,
        htargetPlace⟩
    · rintro ⟨⟨t', ht', hmsgType⟩, hbegin, hsender, htarget, hsub, htargetSub, hplace,
        htargetPlace⟩
      obtain rfl := Option.some.inj (htype.symm.trans ht')
      exact ⟨hbegin, hmsgType, hsender, htarget, hsub, htargetSub, hplace, htargetPlace,
        List.forall_mem_nil _⟩

end Header

namespace Message

variable {m : Message}

/-- The entry stands in the message outside the slots: in the header, in the trailer or
in the body at any depth. -/
def Holds (m : Message) (entry : Entry) : Prop :=
  (∃ f ∈ m.header.fields ++ m.trailer.fields, entry = .field f) ∨ entry.Within m.body

/-- The message may be written. -/
structure IsEncodable (m : Message) : Prop where
  header : m.header.IsEncodable
  entries : ∀ entry, m.Holds entry → entry.IsAllowed

theorem check_iff : m.check = .ok () ↔ m.IsEncodable := by
  have hbody : (∀ f ∈ Entry.fieldsOf m.body, f.check = .ok ()) ↔
      ∀ entry : Entry, entry.Within m.body → entry.IsAllowed := by
    rw [← forM_eq_ok_iff, ← Entry.checkAll_eq_forM, Entry.checkAll_iff]
  simp only [check_eq_ok_iff, freeFields, List.forall_mem_append, hbody, Header.check_iff]
  constructor
  · rintro ⟨hheader, ⟨hfields, hentries⟩, htrailer⟩
    refine ⟨hheader, ?_⟩
    rintro entry (⟨f, hf, rfl⟩ | hwithin)
    · exact Entry.isAllowed_field_iff.2 ((List.mem_append.1 hf).elim (hfields f) (htrailer f))
    · exact hentries entry hwithin
  · rintro ⟨hheader, hentries⟩
    refine ⟨hheader, ⟨fun f hf => ?_, fun entry hwithin => hentries entry (.inr hwithin)⟩,
      fun f hf => ?_⟩
    · exact Entry.isAllowed_field_iff.1
        (hentries _ (.inl ⟨f, List.mem_append_left _ hf, rfl⟩))
    · exact Entry.isAllowed_field_iff.1
        (hentries _ (.inl ⟨f, List.mem_append_right _ hf, rfl⟩))

/-- The encoder takes just the messages that may be written. -/
theorem exists_encode_iff : (∃ bytes, m.encode = .ok bytes) ↔ m.IsEncodable := by
  rw [← check_iff]
  constructor
  · rintro ⟨bytes, hencode⟩
    exact (encode_eq_ok_iff.1 hencode).1
  · intro hcheck
    exact ⟨m.render, encode_eq_ok_iff.2 ⟨hcheck, rfl⟩⟩

theorem foldlM_fields (buffer : Bytes) (fields : List Field) :
    fields.foldlM Field.append buffer =
      fields.forM Field.check >>= fun _ =>
        .ok (buffer ++ Record.render (fields.map Field.record)) := by
  have hrender : Record.render (fields.map Field.record) =
      fields.flatMap fun f => f.record.toBytes := List.flatMap_map ..
  rw [hrender]
  exact foldlM_write (fun _ _ => rfl) buffer fields

theorem foldlM_entries (buffer : Bytes) (entries : List Entry) :
    entries.foldlM Entry.append buffer =
      (Entry.fieldsOf entries).forM Field.check >>= fun _ =>
        .ok (buffer ++ Record.render ((Entry.fieldsOf entries).map Field.record)) := by
  have hstep (buffer : Bytes) (entry : Entry) : Entry.append buffer entry =
      entry.check >>= fun _ =>
        .ok (buffer ++ Record.render (entry.fields.map Field.record)) := by
    rw [← Entry.write_eq]
    rfl
  rw [Entry.render_fieldsOf, ← Entry.forM_check]
  exact foldlM_write hstep buffer entries

/-- What is written between the body length and the checksum are the records of the
message, if it passes its checks. -/
theorem content_eq (m : Message) :
    m.content = m.check >>= fun _ => .ok (Record.render m.records) := by
  have hrecords : Record.render m.records =
      Record.render m.header.slotRecords ++ Record.render (m.header.fields.map Field.record)
        ++ Record.render m.bodyRecords ++ Record.render (m.trailer.fields.map Field.record) := by
    rw [records, freeFields, List.map_append, List.map_append, Record.render_append,
      Record.render_append, Record.render_append, List.append_assoc, List.append_assoc,
      List.append_assoc, bodyRecords]
  rw [hrecords, content, check, freeFields, forM_append, forM_append]
  simp only [foldlM_fields, foldlM_entries]
  cases m.header.check with
  | error fault => rfl
  | ok u =>
    cases m.header.fields.forM Field.check with
    | error fault => rfl
    | ok u =>
      cases (Entry.fieldsOf m.body).forM Field.check with
      | error fault => rfl
      | ok u => rfl

/-- Writing at the end of a buffer appends the wire form of the message, and leaves the
buffer as it is if there is none. -/
theorem encodeInto_eq (m : Message) (buffer : Bytes) :
    m.encodeInto buffer =
      match m.encode with
      | .ok bytes => (buffer ++ bytes, .ok ())
      | .error fault => (buffer, .error fault) := by
  rw [encodeInto, content_eq, encode]
  cases m.check with
  | error fault => rfl
  | ok u =>
    simp only [bind, Except.bind, pure, Except.pure, List.append_assoc, List.drop_left]
    rw [render, renderUnsummed]
    simp only [List.append_assoc]

end Message

end FixEngine
