import FixEngine.Proofs.Wire.Body
import FixEngine.Proofs.Wire.Record
import FixEngine.Wire.Assembly

/-!
# The groups that are open

Which groups a record closes, and which one it opens or continues, depends on
the tags of the records alone and not on the entries read so far.  A nest keeps
just that of every open group: its layout, how many instances its count
announced, and how many have begun.
-/

namespace FixEngine

/-- A group that is open. -/
structure Level where
  layout : Layout
  /-- The number of instances that the count announced. -/
  declared : Nat
  /-- The number of instances that have begun. -/
  found : Nat

namespace Level

/-- The tag belongs to the group.  Before the first instance nothing but the
delimiter does. -/
def accepts (level : Level) (tag : Tag) : Bool :=
  tag = level.layout.delimiter
    || (0 < level.found && (level.layout.isMember tag || (level.layout.nested? tag).isSome))

/-- All announced instances are there, and no more. -/
def IsComplete (level : Level) : Prop := level.found = level.declared

end Level

/-- The part of a message that a tag belongs to. -/
inductive Part where
  | ofSlot (slot : Slot)
  | header
  | trailer
  | body

/-- The part of a message that a tag belongs to. -/
def Part.ofTag (tag : Tag) : Part :=
  match Slot.ofTag? tag with
  | some slot => .ofSlot slot
  | none => if tag.isHeader then .header else if tag.isTrailer then .trailer else .body

/-- The bytes can be read as what a slot holds. -/
def Slot.Takes (d : Dictionary) (bytes : Bytes) : Slot → Prop
  | .bodyLength | .msgSeqNum => (Value.readUnsigned bytes).isOk
  | .sendingTime => (d.read Tag.sendingTime bytes).isOk
  | .msgType | .senderCompId | .targetCompId | .senderSubId | .targetSubId
  | .senderLocationId | .targetLocationId => (Utf8.decode? bytes).isSome

/-- The group that a tag opens at the top of a body, or inside the instances of
a layout. -/
def Dictionary.group? (d : Dictionary) (tag : Tag) : Option Layout → Option Layout
  | none => d.layout? tag
  | some layout =>
    if tag = layout.delimiter || layout.isMember tag then none else layout.nested? tag

/-- The open groups, the innermost first. -/
abbrev Nest := List Level

namespace Nest

/-- The groups that a tag of the body does not belong to, up to the first that
it does. -/
def closedBy (tag : Tag) (nest : Nest) : Nest := nest.takeWhile fun level => !level.accepts tag

/-- The groups that a tag of the body leaves open. -/
def leftBy (tag : Tag) (nest : Nest) : Nest := nest.dropWhile fun level => !level.accepts tag

/-- The layout of the innermost group. -/
def scope (nest : Nest) : Option Layout := nest.head?.map Level.layout

/-- A delimiter begins an instance of the innermost group. -/
def count (tag : Tag) : Nest → Nest
  | [] => []
  | level :: outer =>
    if tag = level.layout.delimiter then { level with found := level.found + 1 } :: outer
    else level :: outer

/-- The groups that a record closes. -/
def closed (nest : Nest) (r : Record) : Nest :=
  match Part.ofTag r.tag with
  | .ofSlot _ | .header => []
  | .trailer => nest
  | .body => nest.closedBy r.tag

/-- The groups that are open after a record of the body that closes none. -/
def take (d : Dictionary) (nest : Nest) (r : Record) : Nest :=
  match d.group? r.tag nest.scope with
  | some layout => ⟨layout, (Value.readCount r.value).toOption.getD 0, 0⟩ :: nest
  | none => count r.tag nest

/-- The value of a record of the body that closes no group can be read as a
count, if the record opens a group, and else by the type of its tag. -/
def Takes (d : Dictionary) (nest : Nest) (r : Record) : Prop :=
  match d.group? r.tag nest.scope with
  | some _ => (Value.readCount r.value).isOk
  | none => (d.read r.tag r.value).isOk

/-- The groups that are open after a record. -/
def after (d : Dictionary) (nest : Nest) (r : Record) : Nest :=
  match Part.ofTag r.tag with
  | .ofSlot _ | .header => nest
  | .trailer => []
  | .body => (nest.leftBy r.tag).take d r

/-- The value of a record can be read as its slot, its group or its type
demands. -/
def Fits (d : Dictionary) (nest : Nest) (r : Record) : Prop :=
  match Part.ofTag r.tag with
  | .ofSlot slot => slot.Takes d r.value
  | .header | .trailer => (d.read r.tag r.value).isOk
  | .body => (nest.leftBy r.tag).Takes d r

/-- Every group is complete. -/
def AllComplete (nest : Nest) : Prop := ∀ level ∈ nest, level.IsComplete

/-- From one nest to another by records that are well formed, fit their places
and close none but complete groups. -/
inductive Path (d : Dictionary) : Nest → List Bytes → Nest → Prop
  | nil (nest : Nest) : Path d nest [] nest
  | cons {nest last : Nest} {raw : Bytes} {r : Record} {rest : List Bytes}
      (hparse : Record.parse raw = .ok r) (hfits : nest.Fits d r)
      (hclosed : (nest.closed r).AllComplete) (hrest : Path d (nest.after d r) rest last) :
      Path d nest (raw :: rest) last

@[simp]
theorem allComplete_nil : AllComplete [] := by
  intro level hlevel
  contradiction

variable {level : Level} {outer : Nest} {tag : Tag}

theorem closedBy_of_accepts (h : level.accepts tag = true) :
    closedBy tag (level :: outer) = [] := by
  simp [closedBy, h]

theorem leftBy_of_accepts (h : level.accepts tag = true) :
    leftBy tag (level :: outer) = level :: outer := by
  simp [leftBy, h]

theorem closedBy_of_refuses (h : level.accepts tag = false) :
    closedBy tag (level :: outer) = level :: closedBy tag outer := by
  simp [closedBy, h]

theorem leftBy_of_refuses (h : level.accepts tag = false) :
    leftBy tag (level :: outer) = leftBy tag outer := by
  simp [leftBy, h]

theorem allComplete_cons :
    AllComplete (level :: outer) ↔ level.IsComplete ∧ outer.AllComplete :=
  List.forall_mem_cons

end Nest

namespace OpenGroup

/-- What a nest keeps of a group. -/
def level (g : OpenGroup) : Level := ⟨g.layout, g.declared, g.instances.length⟩

@[simp]
theorem level_begin (g : OpenGroup) (f : Field) :
    (g.begin f).level = { g.level with found := g.level.found + 1 } := by
  simp only [level, instances_begin, List.length_append, List.length_singleton]
  rfl

theorem level_add {g : OpenGroup} (h : g.current.isSome) (entry : Entry) :
    (g.add entry).level = g.level := by
  simp only [level, length_instances_add h]
  rfl

/-- A group can be closed when it is complete. -/
theorem close_cases (g : OpenGroup) :
    (g.level.IsComplete ∧ g.close = .ok (.group g.layout.countTag g.instances)) ∨
    (¬ g.level.IsComplete ∧ ∃ fault, g.close = .error fault) := by
  by_cases hcomplete : g.instances.length = g.declared
  · exact .inl ⟨hcomplete, by simp only [close, if_pos hcomplete]⟩
  · refine .inr ⟨hcomplete, .groupCountMismatch g.layout.countTag g.declared g.instances.length, ?_⟩
    simp only [close, if_neg hcomplete]

end OpenGroup

namespace BodyDraft

variable {d : Dictionary} {r : Record} {g : OpenGroup}

/-- The open groups of a body. -/
def nest (draft : BodyDraft) : Nest := draft.groups.map OpenGroup.level

theorem nest_attach {draft : BodyDraft} (h : draft.HasPlace) (entry : Entry) :
    (draft.attach entry).nest = draft.nest := by
  obtain ⟨groups, entries⟩ := draft
  cases groups with
  | nil => rfl
  | cons g outer =>
    have hg : g.current.isSome := h g List.mem_cons_self
    simp only [attach, nest, List.map_cons, OpenGroup.level_add hg]

/-- A body can be closed when all its groups are complete. -/
theorem close_cases {draft : BodyDraft} (h : draft.IsSound) :
    (draft.nest.AllComplete ∧ ∃ entries, draft.close = .ok entries) ∨
    (¬ draft.nest.AllComplete ∧ ∃ fault, draft.close = .error fault) := by
  induction draft using closingInduction with
  | nil entries => exact .inl ⟨Nest.allComplete_nil, entries, close_nil⟩
  | cons g outer entries ih =>
    rw [close_cons, nest, List.map_cons, Nest.allComplete_cons]
    rcases g.close_cases with ⟨hcomplete, hclose⟩ | ⟨hcomplete, fault, hclose⟩
    · -- The closed group goes into the next one, whose level does not change.
      have houter : HasPlace ⟨outer, entries⟩ := h.outer
      have hnest := nest_attach houter (.group g.layout.countTag g.instances)
      have hrest := ih (.group g.layout.countTag g.instances) (hasPlace_attach houter _).isSound
      rw [hnest] at hrest
      rw [hclose]
      rcases hrest with ⟨hall, hok⟩ | ⟨hall, herror⟩
      · exact .inl ⟨⟨hcomplete, hall⟩, hok⟩
      · exact .inr ⟨fun h => hall h.2, herror⟩
    · rw [hclose]
      exact .inr ⟨fun h => hcomplete h.1, fault, rfl⟩

/-! ### Placing -/

theorem readField_cases (d : Dictionary) (r : Record) :
    ((d.read r.tag r.value).isOk = true ∧ ∃ f, readField d r = .ok f) ∨
    ((d.read r.tag r.value).isOk = false ∧ ∃ fault, readField d r = .error fault) := by
  rw [readField]
  cases d.read r.tag r.value with
  | ok value => exact .inl ⟨rfl, ⟨r.tag, value⟩, rfl⟩
  | error fault => exact .inr ⟨rfl, .invalidValue r.tag fault, rfl⟩

theorem openGroup_cases (layout : Layout) (r : Record) :
    ((Value.readCount r.value).isOk = true ∧
      openGroup layout r = .ok (.start layout ((Value.readCount r.value).toOption.getD 0))) ∨
    ((Value.readCount r.value).isOk = false ∧ ∃ fault, openGroup layout r = .error fault) := by
  rw [openGroup]
  cases Value.readCount r.value with
  | ok declared => exact .inl ⟨rfl, rfl⟩
  | error fault => exact .inr ⟨rfl, .invalidValue layout.countTag fault, rfl⟩

/-- The place of a tag in a group, in terms of the level of the group. -/
theorem placeIn_cases (hg : g.IsSound) (tag : Tag) :
    (placeIn g tag = .delimiter ∧ tag = g.layout.delimiter ∧ g.level.accepts tag = true) ∨
    (placeIn g tag = .member ∧ tag ≠ g.layout.delimiter ∧ g.current.isSome ∧
      g.layout.isMember tag = true ∧ g.level.accepts tag = true) ∨
    (∃ layout, placeIn g tag = .count layout ∧ tag ≠ g.layout.delimiter ∧ g.current.isSome ∧
      g.layout.isMember tag = false ∧ g.layout.nested? tag = some layout ∧
      g.level.accepts tag = true) ∨
    (placeIn g tag = .outside ∧ g.level.accepts tag = false) := by
  by_cases hdelimiter : tag = g.layout.delimiter
  · refine .inl ⟨by rw [placeIn, if_pos hdelimiter], hdelimiter, ?_⟩
    simp [Level.accepts, OpenGroup.level, hdelimiter]
  cases hcurrent : g.current with
  | none =>
    have hinstances := (OpenGroup.instances_eq_nil_iff hg).2 hcurrent
    refine .inr (.inr (.inr ⟨by simp [placeIn, hdelimiter, hcurrent], ?_⟩))
    simp [Level.accepts, OpenGroup.level, hdelimiter, hinstances]
  | some entries =>
    have hfound : 0 < g.level.found := by
      simp [OpenGroup.level, OpenGroup.instances, hcurrent]
    cases hmember : g.layout.isMember tag with
    | true =>
      have hplace : placeIn g tag = .member := by simp [placeIn, hdelimiter, hcurrent, hmember]
      refine .inr (.inl ⟨hplace, hdelimiter, rfl, rfl, ?_⟩)
      simp [Level.accepts, hfound, show g.level.layout = g.layout from rfl, hmember]
    | false =>
      cases hnested : g.layout.nested? tag with
      | some layout =>
        refine .inr (.inr (.inl ⟨layout, ?_, hdelimiter, rfl, rfl, rfl, ?_⟩))
        · simp [placeIn, hdelimiter, hcurrent, hmember, hnested]
        · simp [Level.accepts, hfound, show g.level.layout = g.layout from rfl, hnested]
      | none =>
        refine .inr (.inr (.inr ⟨?_, ?_⟩))
        · simp [placeIn, hdelimiter, hcurrent, hmember, hnested]
        · simp [Level.accepts, show g.level.layout = g.layout from rfl, hdelimiter, hmember,
            hnested]

/-- Puts a field into the innermost group, or at the top of the body. -/
def putField (f : Field) : BodyDraft → BodyDraft
  | ⟨[], entries⟩ => attach (.field f) ⟨[], entries⟩
  | ⟨g :: outer, entries⟩ =>
    if f.tag = g.layout.delimiter then ⟨g.begin f :: outer, entries⟩
    else attach (.field f) ⟨g :: outer, entries⟩

/-- Puts a record into the innermost group, or at the top of the body. -/
def put (d : Dictionary) (r : Record) (draft : BodyDraft) : Except DecodingFault BodyDraft :=
  match d.group? r.tag draft.nest.scope with
  | some layout => do return { draft with groups := (← openGroup layout r) :: draft.groups }
  | none => do return draft.putField (← readField d r)

/-- The innermost group, if there is one, takes the tag. -/
def Accepts (draft : BodyDraft) (tag : Tag) : Prop :=
  ∀ g ∈ draft.groups.head?, g.level.accepts tag = true

theorem tag_of_readField {f : Field} (h : readField d r = .ok f) : f.tag = r.tag := by
  rw [readField] at h
  split at h
  · injection h with h
    rw [← h]
  · contradiction

/-- A record is put where its tag is accepted. -/
theorem place_of_accepts {draft : BodyDraft} (h : draft.IsSound) (haccepts : draft.Accepts r.tag) :
    draft.place d r = draft.put d r := by
  obtain ⟨groups, entries⟩ := draft
  cases groups with
  | nil =>
    rw [place_nil]
    rfl
  | cons g outer =>
    have hg : g.IsSound := h.groups g List.mem_cons_self
    have hlayout : g.level.layout = g.layout := rfl
    have hgaccepts : g.level.accepts r.tag = true := haccepts g rfl
    have hput : put d r ⟨g :: outer, entries⟩ =
        match (if r.tag = g.layout.delimiter || g.layout.isMember r.tag then none
          else g.layout.nested? r.tag) with
        | some layout => do return ⟨(← openGroup layout r) :: g :: outer, entries⟩
        | none => do return putField (← readField d r) ⟨g :: outer, entries⟩ := rfl
    rw [place_cons, hput]
    rcases placeIn_cases hg r.tag with ⟨hplace, hdelimiter, -⟩ |
      ⟨hplace, hdelimiter, hcurrent, hmember, -⟩ |
      ⟨layout, hplace, hdelimiter, hcurrent, hmember, hnested, -⟩ | ⟨-, hrefuses⟩
    · rw [hplace, if_pos (by simp [hdelimiter])]
      cases hread : readField d r with
      | ok f =>
        have htag : f.tag = g.layout.delimiter := (tag_of_readField hread).trans hdelimiter
        show Except.ok _ = Except.ok (putField f _)
        rw [putField, if_pos htag]
      | error fault => rfl
    · rw [hplace, if_pos (by simp [hmember])]
      cases hread : readField d r with
      | ok f =>
        have htag : f.tag ≠ g.layout.delimiter := by
          rw [tag_of_readField hread]
          exact hdelimiter
        show Except.ok _ = Except.ok (putField f _)
        rw [putField, if_neg htag]
      | error fault => rfl
    · rw [hplace, if_neg (by simp [hdelimiter, hmember]), hnested]
    · rw [hrefuses] at hgaccepts
      contradiction

/-- A group that refuses a tag is closed and goes into the one around it. -/
theorem place_of_refuses {outer : List OpenGroup} {entries : List Entry} (hg : g.IsSound)
    (hrefuses : g.level.accepts r.tag = false) :
    place ⟨g :: outer, entries⟩ d r =
      g.close >>= fun entry => (attach entry ⟨outer, entries⟩).place d r := by
  rw [place_cons]
  rcases placeIn_cases hg r.tag with ⟨-, -, haccepts⟩ | ⟨-, -, -, -, haccepts⟩ |
    ⟨-, -, -, -, -, -, haccepts⟩ | ⟨hplace, -⟩
  · rw [hrefuses] at haccepts
    contradiction
  · rw [hrefuses] at haccepts
    contradiction
  · rw [hrefuses] at haccepts
    contradiction
  · rw [hplace]

/-- Unless it begins an instance, what is accepted goes into one that is there. -/
theorem hasPlace_of_accepts {outer : List OpenGroup} {entries : List Entry} {tag : Tag}
    (h : IsSound ⟨g :: outer, entries⟩) (haccepts : g.level.accepts tag = true)
    (htag : tag ≠ g.layout.delimiter) : HasPlace ⟨g :: outer, entries⟩ := by
  have hg : g.current.isSome := by
    rcases placeIn_cases (h.groups g List.mem_cons_self) tag with ⟨-, hdelimiter, -⟩ |
      ⟨-, -, hcurrent, -⟩ | ⟨-, -, -, hcurrent, -⟩ | ⟨-, hrefuses⟩
    · exact absurd hdelimiter htag
    · exact hcurrent
    · exact hcurrent
    · rw [hrefuses] at haccepts
      contradiction
  intro g' hg'
  rcases List.mem_cons.1 hg' with rfl | hmem
  · exact hg
  · exact h.outer g' hmem

theorem putField_spec {draft : BodyDraft} (h : draft.IsSound) {f : Field}
    (haccepts : draft.Accepts f.tag) :
    (draft.putField f).IsSound ∧ (draft.putField f).nest = Nest.count f.tag draft.nest := by
  obtain ⟨groups, entries⟩ := draft
  cases groups with
  | nil => exact ⟨isSound_nil _, rfl⟩
  | cons g outer =>
    have hnest : nest ⟨g :: outer, entries⟩ = g.level :: nest ⟨outer, entries⟩ := rfl
    have hlayout : g.level.layout = g.layout := rfl
    rw [putField, hnest, Nest.count, hlayout]
    by_cases htag : f.tag = g.layout.delimiter
    · rw [if_pos htag, if_pos htag]
      refine ⟨isSound_cons (OpenGroup.isSound_of_isSome rfl) h.outer entries, ?_⟩
      simp only [nest, List.map_cons, OpenGroup.level_begin]
      rfl
    · rw [if_neg htag, if_neg htag]
      have hplace := hasPlace_of_accepts h (haccepts g rfl) htag
      exact ⟨(hasPlace_attach hplace _).isSound, nest_attach hplace _⟩

theorem isSound_openGroup {draft : BodyDraft} (h : draft.IsSound) {tag : Tag}
    (haccepts : draft.Accepts tag) {layout : Layout}
    (hopened : d.group? tag draft.nest.scope = some layout) (declared : Nat) :
    IsSound ⟨.start layout declared :: draft.groups, draft.entries⟩ := by
  obtain ⟨groups, entries⟩ := draft
  cases groups with
  | nil => exact isSound_cons (OpenGroup.isSound_start layout declared) (by simp) entries
  | cons g outer =>
    have htag : tag ≠ g.layout.delimiter := by
      intro htag
      have hscope : Nest.scope (nest ⟨g :: outer, entries⟩) = some g.layout := rfl
      rw [hscope, Dictionary.group?, if_pos (by simp [htag])] at hopened
      contradiction
    have hplace := hasPlace_of_accepts h (haccepts g rfl) htag
    exact isSound_cons (OpenGroup.isSound_start layout declared) hplace entries

/-- A record is put in place when its value can be read as what it stands for. -/
theorem put_cases {draft : BodyDraft} (h : draft.IsSound) (haccepts : draft.Accepts r.tag) :
    (draft.nest.Takes d r ∧ ∃ draft', draft.put d r = .ok draft' ∧ draft'.IsSound ∧
      draft'.nest = draft.nest.take d r) ∨
    (¬ draft.nest.Takes d r ∧ ∃ fault, draft.put d r = .error fault) := by
  rw [put, Nest.Takes, Nest.take]
  cases hopened : d.group? r.tag draft.nest.scope with
  | some layout =>
    dsimp only
    rcases openGroup_cases layout r with ⟨hok, hopen⟩ | ⟨hok, fault, hopen⟩
    · rw [hopen]
      exact .inl ⟨hok, _, rfl, isSound_openGroup h haccepts hopened _, rfl⟩
    · rw [hopen]
      exact .inr ⟨by simp [hok], fault, rfl⟩
  | none =>
    dsimp only
    rcases readField_cases d r with ⟨hok, f, hread⟩ | ⟨hok, fault, hread⟩
    · have htag : f.tag = r.tag := tag_of_readField hread
      rw [← htag] at haccepts
      obtain ⟨hsound, hnest⟩ := putField_spec h haccepts
      rw [htag] at hnest
      rw [hread]
      exact .inl ⟨hok, _, rfl, hsound, hnest⟩
    · rw [hread]
      exact .inr ⟨by simp [hok], fault, rfl⟩

/-- A record is placed in a body when its value fits and the groups that it
closes are complete. -/
theorem place_cases {draft : BodyDraft} (h : draft.IsSound) :
    (Nest.Takes d (draft.nest.leftBy r.tag) r ∧ (draft.nest.closedBy r.tag).AllComplete ∧
      ∃ draft', draft.place d r = .ok draft' ∧ draft'.IsSound ∧
        draft'.nest = Nest.take d (draft.nest.leftBy r.tag) r) ∨
    (¬ (Nest.Takes d (draft.nest.leftBy r.tag) r ∧ (draft.nest.closedBy r.tag).AllComplete) ∧
      ∃ fault, draft.place d r = .error fault) := by
  induction draft using closingInduction with
  | nil entries =>
    have haccepts : Accepts ⟨[], entries⟩ r.tag := by simp [Accepts]
    rw [place_of_accepts h haccepts]
    rcases put_cases (d := d) h haccepts with ⟨htakes, hput⟩ | ⟨htakes, hput⟩
    · exact .inl ⟨htakes, Nest.allComplete_nil, hput⟩
    · exact .inr ⟨fun h => htakes h.1, hput⟩
  | cons g outer entries ih =>
    have hg : g.IsSound := h.groups g List.mem_cons_self
    have houter : HasPlace ⟨outer, entries⟩ := h.outer
    have hnest : nest ⟨g :: outer, entries⟩ = g.level :: nest ⟨outer, entries⟩ := rfl
    cases htag : g.level.accepts r.tag with
    | true =>
      have haccepts : Accepts ⟨g :: outer, entries⟩ r.tag := by simp [Accepts, htag]
      rw [place_of_accepts h haccepts, hnest, Nest.leftBy_of_accepts htag,
        Nest.closedBy_of_accepts htag]
      rcases put_cases (d := d) h haccepts with ⟨htakes, hput⟩ | ⟨htakes, hput⟩
      · exact .inl ⟨htakes, Nest.allComplete_nil, hput⟩
      · exact .inr ⟨fun h => htakes h.1, hput⟩
    | false =>
      rw [place_of_refuses hg htag, hnest, Nest.leftBy_of_refuses htag,
        Nest.closedBy_of_refuses htag, Nest.allComplete_cons]
      rcases g.close_cases with ⟨hcomplete, hclose⟩ | ⟨hcomplete, fault, hclose⟩
      · have hentry := (hasPlace_attach houter (.group g.layout.countTag g.instances)).isSound
        have hrest := ih (.group g.layout.countTag g.instances) hentry
        rw [nest_attach houter] at hrest
        rw [hclose]
        rcases hrest with ⟨htakes, hall, hplace⟩ | ⟨hrefused, hplace⟩
        · exact .inl ⟨htakes, ⟨hcomplete, hall⟩, hplace⟩
        · exact .inr ⟨fun h => hrefused ⟨h.1, h.2.2⟩, hplace⟩
      · rw [hclose]
        exact .inr ⟨fun h => hcomplete h.2.1, fault, rfl⟩

end BodyDraft

/-- A slot is filled when the bytes can be read as what it holds. -/
theorem Header.fill_cases (h : Header) (d : Dictionary) (slot : Slot) (bytes : Bytes) :
    (slot.Takes d bytes ∧ ∃ h', h.fill d slot bytes = .ok h') ∨
    (¬ slot.Takes d bytes ∧ ∃ fault, h.fill d slot bytes = .error fault) := by
  have hreading {α : Type} (reading : Except ValueFault α) (write : α → Header) :
      (reading.isOk = true ∧ ∃ h', (do return write (← reading)) = Except.ok h') ∨
      (¬ reading.isOk = true ∧ ∃ fault, (do return write (← reading)) = Except.error fault) := by
    cases reading with
    | ok a => exact .inl ⟨rfl, write a, rfl⟩
    | error fault => exact .inr ⟨Bool.false_ne_true, fault, rfl⟩
  have htext (write : String → Header) :
      ((Utf8.decode? bytes).isSome = true ∧
        ∃ h', (do return write (← Value.readText bytes)) = Except.ok h') ∨
      (¬ (Utf8.decode? bytes).isSome = true ∧
        ∃ fault, (do return write (← Value.readText bytes)) = Except.error fault) := by
    rw [Value.readText]
    cases Utf8.decode? bytes with
    | some text => exact .inl ⟨rfl, write text, rfl⟩
    | none => exact .inr ⟨Bool.false_ne_true, .notUtf8, rfl⟩
  cases slot with
  | bodyLength => exact hreading (Value.readUnsigned bytes) _
  | msgSeqNum => exact hreading (Value.readUnsigned bytes) _
  | sendingTime => exact hreading (d.read Tag.sendingTime bytes) _
  | msgType => exact htext _
  | senderCompId => exact htext _
  | targetCompId => exact htext _
  | senderSubId => exact htext _
  | targetSubId => exact htext _
  | senderLocationId => exact htext _
  | targetLocationId => exact htext _

namespace MessageDraft

variable {d : Dictionary} {r : Record}

/-- A message in progress takes up a record that fits its place and closes none
but complete groups. -/
theorem addRecord_cases {draft : MessageDraft} (h : draft.body.IsSound) :
    (draft.body.nest.Fits d r ∧ (draft.body.nest.closed r).AllComplete ∧
      ∃ draft', draft.addRecord d r = .ok draft' ∧ draft'.body.IsSound ∧
        draft'.body.nest = draft.body.nest.after d r ∧ draft'.sum = draft.sum) ∨
    (¬ (draft.body.nest.Fits d r ∧ (draft.body.nest.closed r).AllComplete) ∧
      ∃ fault, draft.addRecord d r = .error fault) := by
  rw [addRecord, Nest.Fits, Nest.closed, Nest.after, Part.ofTag]
  cases Slot.ofTag? r.tag with
  | some slot =>
    dsimp only
    rcases draft.header.fill_cases d slot r.value with ⟨htakes, header, hfill⟩ |
      ⟨htakes, fault, hfill⟩
    · rw [hfill]
      exact .inl ⟨htakes, Nest.allComplete_nil, _, rfl, h, rfl, rfl⟩
    · rw [hfill]
      exact .inr ⟨fun h => htakes h.1, _, rfl⟩
  | none =>
    dsimp only
    cases r.tag.isHeader with
    | true =>
      rcases BodyDraft.readField_cases d r with ⟨hok, f, hread⟩ | ⟨hok, fault, hread⟩
      · simp only [if_true, hread]
        exact .inl ⟨hok, Nest.allComplete_nil, _, rfl, h, rfl, rfl⟩
      · simp only [if_true, hread, hok]
        exact .inr ⟨fun h => Bool.false_ne_true h.1, fault, rfl⟩
    | false =>
      cases r.tag.isTrailer with
      | true =>
        simp only [if_true, Bool.false_eq_true, if_false]
        rcases draft.body.close_cases h with ⟨hcomplete, entries, hclose⟩ |
          ⟨hcomplete, fault, hclose⟩
        · rw [hclose]
          rcases BodyDraft.readField_cases d r with ⟨hok, f, hread⟩ | ⟨hok, fault, hread⟩
          · rw [hread]
            exact .inl ⟨hok, hcomplete, _, rfl, BodyDraft.isSound_nil entries, rfl, rfl⟩
          · rw [hread, hok]
            exact .inr ⟨fun h => Bool.false_ne_true h.1, fault, rfl⟩
        · rw [hclose]
          exact .inr ⟨fun h => hcomplete h.2, fault, rfl⟩
      | false =>
        simp only [Bool.false_eq_true, if_false]
        rcases draft.body.place_cases (d := d) (r := r) h with
          ⟨htakes, hcomplete, body, hplace, hsound, hnest⟩ | ⟨hrefused, fault, hplace⟩
        · rw [hplace]
          exact .inl ⟨htakes, hcomplete, _, rfl, hsound, hnest, rfl⟩
        · rw [hplace]
          exact .inr ⟨hrefused, fault, rfl⟩

end MessageDraft

end FixEngine
