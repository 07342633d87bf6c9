import FixEngine.Proofs.Dictionary.Registration
import FixEngine.Proofs.Wire.Emission

/-!
# What becomes of a body

A body that takes up a record first closes the groups that the record does not
belong to, and then either opens a group or holds a field.  `BodyDraft.Follows`
says which of these happens, and `BodyDraft.Run` puts the records of a message
one after another.
-/

namespace FixEngine

/-- The tags that may stand in a message for one that arrives: the tag itself, or the count
tag of the layout that the dictionary has under it. -/
inductive Dictionary.ShowsTag (d : Dictionary) (tag : Tag) : Tag → Prop
  | own : d.ShowsTag tag tag
  | ofLayout {layout : Layout} (hlayout : d.layout? tag = some layout) :
      d.ShowsTag tag layout.countTag

namespace Dictionary

variable {d : Dictionary} {tag shown : Tag} {scope : Option Layout} {layout : Layout}

/-- Inside another group a group opens under its own count tag. -/
theorem showsTag_of_group? (hlayout : d.group? tag scope = some layout) :
    d.ShowsTag tag layout.countTag := by
  cases scope with
  | none => exact .ofLayout hlayout
  | some outer =>
    rw [group?] at hlayout
    split at hlayout
    · contradiction
    · have htag : layout.countTag = tag := by simpa using List.find?_some hlayout
      rw [htag]
      exact .own

theorem IsRegistered.eq_of_showsTag (h : d.IsRegistered) (hshows : d.ShowsTag tag shown) :
    tag = shown := by
  cases hshows with
  | own => rfl
  | ofLayout hlayout => exact (h tag _ hlayout).symm

/-- A group opens under its own count tag, inside another one as at the top. -/
theorem IsRegistered.countTag_of_group? (h : d.IsRegistered)
    (hlayout : d.group? tag scope = some layout) : layout.countTag = tag :=
  (h.eq_of_showsTag (showsTag_of_group? hlayout)).symm

end Dictionary

/-- The well-formed records of the body, in order of arrival. -/
def Record.bodyOf (records : List Bytes) : List Record :=
  (records.filterMap fun raw => (parse raw).toOption).filter fun r =>
    !r.tag.isHeader && !r.tag.isTrailer

namespace BodyDraft

/-- The innermost groups of a body are closed, one after another. -/
inductive ClosesTo : BodyDraft → BodyDraft → Prop
  | refl (draft : BodyDraft) : ClosesTo draft draft
  | step {g : OpenGroup} {outer : List OpenGroup} {entries : List Entry} {entry : Entry}
      {last : BodyDraft} (hclose : g.close = .ok entry)
      (hrest : ClosesTo (attach entry ⟨outer, entries⟩) last) : ClosesTo ⟨g :: outer, entries⟩ last

/-- What becomes of a body with a record. -/
inductive Follows (d : Dictionary) (r : Record) : BodyDraft → BodyDraft → Prop
  | header {draft : BodyDraft} (hheader : r.tag.isHeader = true) : Follows d r draft draft
  | trailer {draft : BodyDraft} {entries : List Entry} (hheader : r.tag.isHeader = false)
      (htrailer : r.tag.isTrailer = true) (hcloses : draft.ClosesTo ⟨[], entries⟩) :
      Follows d r draft ⟨[], entries⟩
  | opened {draft settled : BodyDraft} {layout : Layout} {n : Nat}
      (hheader : r.tag.isHeader = false) (htrailer : r.tag.isTrailer = false)
      (hcloses : draft.ClosesTo settled) (hsettled : settled.nest = draft.nest.leftBy r.tag)
      (hlayout : d.group? r.tag settled.nest.scope = some layout)
      (hcount : Value.readCount r.value = .ok n) :
      Follows d r draft ⟨.start layout n :: settled.groups, settled.entries⟩
  | held {draft settled : BodyDraft} {f : Field}
      (hheader : r.tag.isHeader = false) (htrailer : r.tag.isTrailer = false)
      (hcloses : draft.ClosesTo settled) (hsettled : settled.nest = draft.nest.leftBy r.tag)
      (haccepts : settled.Accepts r.tag) (hlayout : d.group? r.tag settled.nest.scope = none)
      (hread : readField d r = .ok f) : Follows d r draft (settled.putField f)

/-- From one body to another by records, each of which is well formed. -/
inductive Run (d : Dictionary) : BodyDraft → List Bytes → BodyDraft → Prop
  | nil (draft : BodyDraft) : Run d draft [] draft
  | cons {draft next last : BodyDraft} {raw : Bytes} {r : Record} {rest : List Bytes}
      (hparse : Record.parse raw = .ok r) (hsound : draft.IsSound)
      (hfollows : draft.Follows d r next) (hnest : next.nest = draft.nest.after d r)
      (hrest : Run d next rest last) : Run d draft (raw :: rest) last

end BodyDraft

namespace Record

variable {raw : Bytes} {r : Record}

theorem bodyOf_cons (hparse : parse raw = .ok r) (rest : List Bytes) :
    bodyOf (raw :: rest) =
      if !r.tag.isHeader && !r.tag.isTrailer then r :: bodyOf rest else bodyOf rest := by
  simp only [bodyOf, List.filterMap_cons, hparse, Except.toOption, List.filter_cons]

/-- A record of the body counts among the records of the body. -/
theorem bodyOf_cons_of_body (hparse : parse raw = .ok r) (hheader : r.tag.isHeader = false)
    (htrailer : r.tag.isTrailer = false) (rest : List Bytes) :
    bodyOf (raw :: rest) = r :: bodyOf rest := by
  rw [bodyOf_cons hparse, hheader, htrailer]
  rfl

theorem bodyOf_cons_of_aside (hparse : parse raw = .ok r)
    (haside : (r.tag.isHeader || r.tag.isTrailer) = true) (rest : List Bytes) :
    bodyOf (raw :: rest) = bodyOf rest := by
  rw [bodyOf_cons hparse, ← Bool.not_or, haside]
  rfl

end Record

namespace BodyDraft

variable {d : Dictionary} {r : Record} {draft draft' last : BodyDraft} {entries : List Entry}

theorem close_eq_ok {g : OpenGroup} {entry : Entry} (h : g.close = .ok entry) :
    g.instances.length = g.declared ∧ entry = .group g.layout.countTag g.instances := by
  rw [OpenGroup.close] at h
  split at h
  · next hcomplete => exact ⟨hcomplete, (Except.ok.inj h).symm⟩
  · contradiction

theorem ClosesTo.isSound (h : draft.ClosesTo last) (hsound : draft.IsSound) : last.IsSound := by
  induction h with
  | refl => exact hsound
  | @step g outer entries entry last _ _ ih =>
    have houter : HasPlace ⟨outer, entries⟩ := hsound.outer
    exact ih (hasPlace_attach houter _).isSound

theorem closesTo_of_close (h : draft.close = .ok entries) : draft.ClosesTo ⟨[], entries⟩ := by
  induction draft using closingInduction with
  | nil entries' =>
    rw [close_nil] at h
    cases h
    exact .refl _
  | cons g outer entries' ih =>
    rw [close_cons, bind_eq_ok_iff] at h
    obtain ⟨entry, hclose, hrest⟩ := h
    exact .step hclose (ih entry hrest)

/-- A record is put into a body once the groups are closed that refuse it. -/
theorem exists_put_of_place (h : draft.IsSound) (hplace : draft.place d r = .ok draft') :
    ∃ settled, draft.ClosesTo settled ∧ settled.nest = draft.nest.leftBy r.tag ∧
      settled.Accepts r.tag ∧ settled.put d r = .ok draft' := by
  induction draft using closingInduction with
  | nil entries =>
    have haccepts : Accepts ⟨[], entries⟩ r.tag := by simp [Accepts]
    rw [place_of_accepts h haccepts] at hplace
    exact ⟨_, .refl _, rfl, haccepts, hplace⟩
  | cons g outer entries ih =>
    have hnest : nest ⟨g :: outer, entries⟩ = g.level :: nest ⟨outer, entries⟩ := rfl
    cases htag : g.level.accepts r.tag with
    | true =>
      have haccepts : Accepts ⟨g :: outer, entries⟩ r.tag := by simp [Accepts, htag]
      rw [place_of_accepts h haccepts] at hplace
      rw [hnest, Nest.leftBy_of_accepts htag]
      exact ⟨_, .refl _, rfl, haccepts, hplace⟩
    | false =>
      have houter : HasPlace ⟨outer, entries⟩ := h.outer
      rw [place_of_refuses (h.groups g List.mem_cons_self) htag, bind_eq_ok_iff] at hplace
      obtain ⟨entry, hclose, hplace⟩ := hplace
      obtain ⟨settled, hcloses, hsettled, haccepts, hput⟩ :=
        ih entry (hasPlace_attach houter entry).isSound hplace
      rw [nest_attach houter] at hsettled
      rw [hnest, Nest.leftBy_of_refuses htag]
      exact ⟨settled, .step hclose hcloses, hsettled, haccepts, hput⟩

/-- A record of the body opens a group or is held as a field. -/
theorem follows_of_place (h : draft.IsSound) (hheader : r.tag.isHeader = false)
    (htrailer : r.tag.isTrailer = false) (hplace : draft.place d r = .ok draft') :
    draft.Follows d r draft' := by
  obtain ⟨settled, hcloses, hsettled, haccepts, hput⟩ := exists_put_of_place h hplace
  rw [put] at hput
  split at hput
  · next layout hlayout =>
    obtain ⟨g, hopen, hdraft⟩ := bind_eq_ok_iff.1 hput
    cases hdraft
    rw [openGroup] at hopen
    split at hopen
    · next n hcount =>
      cases hopen
      exact .opened hheader htrailer hcloses hsettled hlayout hcount
    · contradiction
  · next hlayout =>
    obtain ⟨f, hread, hdraft⟩ := bind_eq_ok_iff.1 hput
    cases hdraft
    exact .held hheader htrailer hcloses hsettled haccepts hlayout hread

end BodyDraft

/-- The tags of slots are tags of the header. -/
theorem Slot.isHeader_of_ofTag? {tag : Tag} {slot : Slot} (h : Slot.ofTag? tag = some slot) :
    tag.isHeader = true := by
  have htag : slot.tag = tag := by simpa using List.find?_some h
  rw [← htag]
  cases slot <;> rfl

namespace MessageDraft

variable {d : Dictionary} {r : Record} {draft next : MessageDraft}

/-- What becomes of a message in progress with a record: a slot is filled, a field joins
the header or the trailer, or the body takes the record up. -/
inductive Adds (d : Dictionary) (draft : MessageDraft) (r : Record) : MessageDraft → Prop
  | slot {slot : Slot} {header : Header} (hslot : Slot.ofTag? r.tag = some slot)
      (hfill : draft.header.fill d slot r.value = .ok header) :
      Adds d draft r { draft with header }
  | header {f : Field} (hslot : Slot.ofTag? r.tag = none) (hheader : r.tag.isHeader = true)
      (hread : BodyDraft.readField d r = .ok f) :
      Adds d draft r
        { draft with header := { draft.header with fields := draft.header.fields ++ [f] } }
  | trailer {f : Field} {entries : List Entry} (hheader : r.tag.isHeader = false)
      (htrailer : r.tag.isTrailer = true) (hclose : draft.body.close = .ok entries)
      (hread : BodyDraft.readField d r = .ok f) :
      Adds d draft r
        { draft with body := { entries }, trailerFields := draft.trailerFields ++ [f] }
  | body {body : BodyDraft} (hheader : r.tag.isHeader = false) (htrailer : r.tag.isTrailer = false)
      (hplace : draft.body.place d r = .ok body) : Adds d draft r { draft with body }

theorem adds_of_addRecord (h : draft.addRecord d r = .ok next) : draft.Adds d r next := by
  rw [addRecord] at h
  split at h
  · next slot hslot =>
    split at h
    · next header hfill =>
      cases h
      exact .slot hslot hfill
    · contradiction
  · next hslot =>
    split at h
    · next hheader =>
      obtain ⟨f, hread, hnext⟩ := bind_eq_ok_iff.1 h
      cases hnext
      exact .header hslot hheader hread
    · next hheader =>
      rw [Bool.not_eq_true] at hheader
      split at h
      · next htrailer =>
        obtain ⟨entries, hclose, hrest⟩ := bind_eq_ok_iff.1 h
        obtain ⟨f, hread, hnext⟩ := bind_eq_ok_iff.1 hrest
        cases hnext
        exact .trailer hheader htrailer hclose hread
      · next htrailer =>
        rw [Bool.not_eq_true] at htrailer
        obtain ⟨body, hplace, hnext⟩ := bind_eq_ok_iff.1 h
        cases hnext
        exact .body hheader htrailer hplace

/-- What becomes of the body of a message with a record. -/
theorem follows_of_addRecord (h : draft.body.IsSound) (hadd : draft.addRecord d r = .ok next) :
    draft.body.Follows d r next.body := by
  cases adds_of_addRecord hadd with
  | slot hslot => exact .header (Slot.isHeader_of_ofTag? hslot)
  | header _ hheader => exact .header hheader
  | trailer hheader htrailer hclose =>
    exact .trailer hheader htrailer (BodyDraft.closesTo_of_close hclose)
  | body hheader htrailer hplace => exact BodyDraft.follows_of_place h hheader htrailer hplace

theorem isSound_of_addRecord (h : draft.body.IsSound) (hadd : draft.addRecord d r = .ok next) :
    next.body.IsSound ∧ next.body.nest = draft.body.nest.after d r := by
  rcases draft.addRecord_cases (d := d) (r := r) h with
    ⟨-, -, next', hadd', hsound, hnest, -⟩ | ⟨-, fault, hadd'⟩
  · cases hadd'.symm.trans hadd
    exact ⟨hsound, hnest⟩
  · have hboth := hadd'.symm.trans hadd
    contradiction

end MessageDraft

namespace Assembler

variable {d : Dictionary} {records inner : List Bytes} {k : Nat} {m : Message}

/-- The body of a message in progress, as long as it is not dropped. -/
theorem run_of_after {draft draft' : MessageDraft} (h : draft.body.IsSound)
    (hinner : ∀ raw ∈ inner, Record.IsInner raw)
    (hafter : after d (assembling draft) inner = assembling draft') :
    BodyDraft.Run d draft.body inner draft'.body ∧ draft'.body.IsSound := by
  induction inner generalizing draft with
  | nil =>
    cases hafter
    exact ⟨.nil _, h⟩
  | cons raw rest ih =>
    have hraw := hinner raw List.mem_cons_self
    have hrest : ∀ raw' ∈ rest, Record.IsInner raw' :=
      fun raw' h => hinner raw' (List.mem_cons_of_mem raw h)
    rw [after_cons] at hafter
    rcases step_assembling (d := d) draft hraw with
      ⟨r, next, hparse, hadd, hstep⟩ | ⟨-, fault, hstep⟩
    · rw [hstep] at hafter
      have hsummed :
          ({ draft with sum := Record.addTo draft.sum raw } : MessageDraft).body.IsSound := h
      have hfollows := MessageDraft.follows_of_addRecord hsummed hadd
      obtain ⟨hsound, hnest⟩ := MessageDraft.isSound_of_addRecord hsummed hadd
      obtain ⟨hrun, hlast⟩ := ih hsound hrest hafter
      exact ⟨.cons hparse h hfollows hnest hrun, hlast⟩
    · rw [hstep, after_skipping hrest] at hafter
      contradiction

/-- The body of a message that is handed over comes from the records of a sealed
span, with all groups closed at the end. -/
theorem exists_run_of_emits (h : Emits d records k m) :
    ∃ s : Span records k, s.IsSealed d ∧ ∃ body : BodyDraft, BodyDraft.Run d {} s.inner body ∧
      body.IsSound ∧ body.ClosesTo ⟨[], m.body⟩ := by
  obtain ⟨s, hsealed⟩ := exists_isSealed h
  obtain ⟨text, htext⟩ := Option.isSome_iff_exists.1 hsealed.text
  rw [Emits, getElem?_trace, s.getElem?_eq, after_take s hsealed.begins htext, Option.map_some] at h
  obtain ⟨draft, r, hafter, -, -, hfinish⟩ := step_emits (Option.some.inj h)
  obtain ⟨entries, hclose, -, rfl⟩ := MessageDraft.finish_eq_ok_iff.1 hfinish
  obtain ⟨hsound, -⟩ := body_start text s.first
  obtain ⟨hrun, hlast⟩ := run_of_after hsound s.isInner hafter
  exact ⟨s, hsealed, draft.body, hrun, hlast, BodyDraft.closesTo_of_close hclose⟩

/-- A message with a group of parties in which a group of its own and a header
record stand. -/
def sampleRecords : List Bytes :=
  ["8=FIX.4.4", "35=D", "453=1", "448=A", "802=1", "523=B", "34=2", "803=4", "58=x",
    "10=095"].map Utf8.encode

end Assembler

end FixEngine
