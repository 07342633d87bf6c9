import FixEngine.Proofs.Dictionary.Interpretation
import FixEngine.Proofs.Outcome
import FixEngine.Proofs.Wire.Form

/-!
# Reading back a body

The records of a body in form are placed one after another, and each entry ends
up where it came from.  While a group at the end of the entries is still open,
the draft only behaves like the one that has it as an entry: it does for closing
and for all records that the open groups refuse.
-/

namespace FixEngine

namespace OpenGroup

/-- The group with an instance begun. -/
def withInstance (g : OpenGroup) (entries : List Entry) : OpenGroup :=
  { g with finished := g.instances, current := some entries }

theorem begin_eq (g : OpenGroup) (f : Field) : g.begin f = g.withInstance [.field f] := rfl

@[simp]
theorem instances_withInstance (g : OpenGroup) (entries : List Entry) :
    (g.withInstance entries).instances = g.instances ++ [entries] := rfl

end OpenGroup

namespace BodyDraft

variable {d : Dictionary}

/-- Places records one after another. -/
def placeAll (d : Dictionary) (draft : BodyDraft) (records : List Record) :
    Except DecodingFault BodyDraft :=
  records.foldlM (fun draft r => draft.place d r) draft

theorem placeAll_append {draft next last : BodyDraft} {left right : List Record}
    (hleft : draft.placeAll d left = .ok next) (hright : next.placeAll d right = .ok last) :
    draft.placeAll d (left ++ right) = .ok last :=
  foldlM_append_eq_ok_iff.2 ⟨next, hleft, hright⟩

theorem placeAll_cons {draft next last : BodyDraft} {r : Record} {rest : List Record}
    (hr : draft.place d r = .ok next) (hrest : next.placeAll d rest = .ok last) :
    draft.placeAll d (r :: rest) = .ok last :=
  foldlM_cons_eq_ok_iff.2 ⟨next, hr, hrest⟩

/-- Attaches entries one after another. -/
def attachAll (draft : BodyDraft) (entries : List Entry) : BodyDraft :=
  entries.foldl (fun draft entry => draft.attach entry) draft

theorem attachAll_nil (before entries : List Entry) :
    attachAll ⟨[], before⟩ entries = ⟨[], before ++ entries⟩ := by
  induction entries generalizing before with
  | nil => rw [List.append_nil]; rfl
  | cons entry rest ih =>
    have hstep : attachAll ⟨[], before⟩ (entry :: rest) =
        attachAll ⟨[], before ++ [entry]⟩ rest := rfl
    rw [hstep, ih, List.append_assoc, List.singleton_append]

theorem attachAll_withInstance (g : OpenGroup) (outer : List OpenGroup)
    (top before entries : List Entry) :
    attachAll ⟨g.withInstance before :: outer, top⟩ entries =
      ⟨g.withInstance (before ++ entries) :: outer, top⟩ := by
  induction entries generalizing before with
  | nil => rw [List.append_nil]; rfl
  | cons entry rest ih =>
    have hstep : attachAll ⟨g.withInstance before :: outer, top⟩ (entry :: rest) =
        attachAll ⟨g.withInstance (before ++ [entry]) :: outer, top⟩ rest := rfl
    rw [hstep, ih, List.append_assoc, List.singleton_append]

/-! ### Groups that are still open -/

/-- A draft behaves like another one in which the groups that are left open are
already closed. -/
structure Settles (d : Dictionary) (draft target : BodyDraft) (left : Nest) : Prop where
  place : ∀ r, left.Refuses r.tag → draft.place d r = target.place d r
  close : draft.close = target.close

theorem Settles.refl (draft : BodyDraft) (left : Nest) : draft.Settles d draft left :=
  ⟨fun _ _ => rfl, rfl⟩

theorem Settles.trans {draft middle target : BodyDraft} {left right : Nest}
    (hleft : draft.Settles d middle left) (hright : middle.Settles d target right) :
    draft.Settles d target (left ++ right) := by
  refine ⟨?_, hleft.close.trans hright.close⟩
  intro r hrefuses
  have hmiddle := hleft.place r fun level h => hrefuses level (List.mem_append_left right h)
  have htarget := hright.place r fun level h => hrefuses level (List.mem_append_right left h)
  exact hmiddle.trans htarget

/-- A complete group behaves like the entry that it becomes. -/
theorem settles_close {g : OpenGroup} {outer : List OpenGroup} {entries : List Entry}
    (hg : g.IsSound) (hcomplete : g.instances.length = g.declared) :
    Settles d ⟨g :: outer, entries⟩
      (attach (.group g.layout.countTag g.instances) ⟨outer, entries⟩) [g.level] := by
  have hclose : g.close = .ok (.group g.layout.countTag g.instances) := by
    simp only [OpenGroup.close, if_pos hcomplete]
  constructor
  · intro r hrefuses
    rw [place_of_refuses hg (hrefuses g.level List.mem_cons_self), hclose]
    rfl
  · rw [close_cons, hclose]
    rfl

/-! ### Placing where a record belongs -/

theorem found_pos {g : OpenGroup} (h : g.current.isSome) : 0 < g.level.found := by
  obtain ⟨entries, hcurrent⟩ := Option.isSome_iff_exists.1 h
  simp [OpenGroup.level, OpenGroup.instances, hcurrent]

theorem accepts_of_holdsField {draft : BodyDraft} (h : draft.HasPlace) {tag : Tag}
    (htag : d.HoldsField tag draft.nest.scope) : draft.Accepts tag := by
  obtain ⟨groups, entries⟩ := draft
  cases groups with
  | nil => simp [Accepts]
  | cons g outer =>
    intro g' hg'
    cases hg'
    have hfound := found_pos (h g List.mem_cons_self)
    have hmember : g.level.layout.isMember tag = true := htag.2
    simp [Level.accepts, hfound, hmember]

theorem accepts_of_group? {draft : BodyDraft} (h : draft.HasPlace) {tag : Tag} {layout : Layout}
    (htag : d.group? tag draft.nest.scope = some layout) : draft.Accepts tag := by
  obtain ⟨groups, entries⟩ := draft
  cases groups with
  | nil => simp [Accepts]
  | cons g outer =>
    intro g' hg'
    cases hg'
    have hfound := found_pos (h g List.mem_cons_self)
    have hscope : d.group? tag (nest ⟨g :: outer, entries⟩).scope =
        if tag = g.level.layout.delimiter || g.level.layout.isMember tag then none
        else g.level.layout.nested? tag := rfl
    rw [hscope] at htag
    split at htag
    · contradiction
    · simp [Level.accepts, hfound, htag]

theorem group?_of_holdsField {tag : Tag} {scope : Option Layout}
    (h : d.HoldsField tag scope) : d.group? tag scope = none := by
  cases scope with
  | none => exact h
  | some layout => simp [Dictionary.group?, h.2]

theorem readField_record {f : Field} (h : f.ReadsBack d) : readField d f.record = .ok f := by
  have hread : d.read f.record.tag f.record.value = .ok f.value := h
  rw [readField, hread]
  rfl

/-- A field is attached where the dictionary holds it. -/
theorem place_field {draft : BodyDraft} (h : draft.HasPlace) {f : Field}
    (hholds : d.HoldsField f.tag draft.nest.scope) (hreads : f.ReadsBack d) :
    draft.place d f.record = .ok (draft.attach (.field f)) := by
  have hgroup : d.group? f.record.tag draft.nest.scope = none := group?_of_holdsField hholds
  rw [place_of_accepts h.isSound (accepts_of_holdsField h hholds), put, hgroup]
  dsimp only
  rw [readField_record hreads]
  obtain ⟨groups, entries⟩ := draft
  cases groups with
  | nil => rfl
  | cons g outer =>
    have htag : f.tag ≠ g.layout.delimiter := hholds.1
    show Except.ok (putField f ⟨g :: outer, entries⟩) = _
    rw [putField, if_neg htag]

/-- The delimiter of a group begins an instance. -/
theorem place_delimiter {g : OpenGroup} {outer : List OpenGroup} {entries : List Entry}
    (h : IsSound ⟨g :: outer, entries⟩) {f : Field} (htag : f.tag = g.layout.delimiter)
    (hreads : f.ReadsBack d) :
    place ⟨g :: outer, entries⟩ d f.record = .ok ⟨g.begin f :: outer, entries⟩ := by
  have haccepts : Accepts ⟨g :: outer, entries⟩ f.record.tag := by
    intro g' hg'
    cases hg'
    simp [Level.accepts, show g.level.layout = g.layout from rfl, Field.record, htag]
  have hgroup : d.group? f.record.tag (nest ⟨g :: outer, entries⟩).scope = none := by
    have hscope : (nest ⟨g :: outer, entries⟩).scope = some g.layout := rfl
    simp [hscope, Dictionary.group?, Field.record, htag]
  rw [place_of_accepts h haccepts, put, hgroup]
  dsimp only
  rw [readField_record hreads]
  show Except.ok (putField f ⟨g :: outer, entries⟩) = _
  rw [putField, if_pos htag]

theorem openGroup_countField (layout : Layout) (countTag : Tag) {n : Nat}
    (hn : n ≤ 0x7FFFFFFFFFFFFFFF) :
    openGroup layout (Entry.countField countTag n).record = .ok (.start layout n) := by
  have hcount : Value.readCount (Entry.countField countTag n).record.value = .ok n :=
    Value.readCount_countField countTag hn
  rw [openGroup, hcount]

/-- A count opens the group that the dictionary knows under its tag. -/
theorem place_count {draft : BodyDraft} (h : draft.HasPlace) {countTag : Tag} {layout : Layout}
    (hgroup : d.group? countTag draft.nest.scope = some layout) {n : Nat}
    (hn : n ≤ 0x7FFFFFFFFFFFFFFF) :
    draft.place d (Entry.countField countTag n).record =
      .ok ⟨.start layout n :: draft.groups, draft.entries⟩ := by
  have hgroup' : d.group? (Entry.countField countTag n).record.tag draft.nest.scope =
      some layout := hgroup
  rw [place_of_accepts h.isSound (accepts_of_group? h hgroup), put, hgroup']
  dsimp only
  rw [openGroup_countField layout countTag hn]
  rfl

theorem placeAll_eq_of_settles {draft target : BodyDraft} {left : Nest}
    (h : draft.Settles d target left) {r : Record} (hr : left.Refuses r.tag)
    (rest : List Record) : draft.placeAll d (r :: rest) = target.placeAll d (r :: rest) := by
  rw [placeAll, placeAll, List.foldlM_cons, List.foldlM_cons, h.place r hr]

end BodyDraft

namespace Entry

variable {d : Dictionary}

/-- The first field of an entry has the tag of the entry. -/
theorem exists_fields_eq_cons (entry : Entry) :
    ∃ f rest, entry.fields = f :: rest ∧ f.tag = entry.tag := by
  cases entry with
  | field f => exact ⟨f, [], by rw [fields], rfl⟩
  | group countTag instances => exact ⟨_, _, by rw [fields], rfl⟩

/-- Each instance in form has at least one field. -/
theorem length_le_length_fieldsOfInstances {layout : Layout} {before : Nest}
    {instances : List (List Entry)} (h : InstancesInForm d layout before instances) :
    instances.length ≤ (fieldsOfInstances instances).length := by
  induction instances generalizing before with
  | nil => exact Nat.zero_le _
  | cons entries rest ih =>
    rw [InstancesInForm] at h
    have hrest := ih h.2.2
    have hpos : 0 < (fieldsOf entries).length := by
      rcases entries with _ | ⟨f | ⟨countTag, instances⟩, others⟩
      · exact absurd h.2.1 (by simp [InstanceInForm])
      · simp [fieldsOf, fields]
      · exact absurd h.2.1 (by simp [InstanceInForm])
    rw [fieldsOfInstances, List.length_append, List.length_cons]
    omega

open BodyDraft

mutual

/-- The records of an entry in form attach it, but for the groups that are left
open. -/
theorem placeAll_entry : ∀ (entry : Entry) {scope : Option Layout} {draft : BodyDraft},
    draft.HasPlace → draft.nest.scope = scope → entry.InForm d scope →
    entry.fields.length ≤ 0x7FFFFFFFFFFFFFFF →
    ∃ last, draft.placeAll d (entry.fields.map Field.record) = .ok last ∧
      last.Settles d (draft.attach entry) (entry.left d scope)
  | .field f, scope, draft, hplace, hscope, hform, _ => by
    rw [InForm] at hform
    obtain ⟨-, hholds, hreads⟩ := hform
    rw [← hscope] at hholds
    refine ⟨draft.attach (.field f), ?_, .refl _ _⟩
    rw [fields]
    exact placeAll_cons (place_field hplace hholds hreads) rfl
  | .group countTag instances, scope, draft, hplace, hscope, hform, hsize => by
    rw [InForm] at hform
    obtain ⟨-, layout, hgroup, hcountTag, hinstances⟩ := hform
    have hlength := length_le_length_fieldsOfInstances hinstances
    rw [fields, List.length_cons] at hsize
    obtain ⟨groups, top⟩ := draft
    rw [← hscope] at hgroup
    have hcount := place_count hplace hgroup (n := instances.length) (by omega)
    have hopened : Settles d ⟨.start layout instances.length :: groups, top⟩
        ⟨.start layout instances.length :: groups, top⟩ [] := .refl _ []
    obtain ⟨last, g, hlast, hsettles, hg, hlayout, hdeclared, hinst⟩ :=
      placeAll_instances instances hplace (OpenGroup.isSound_start layout instances.length) hopened
        hinstances (by omega)
    have hlayout' : g.layout = layout := hlayout
    have hdeclared' : g.declared = instances.length := hdeclared
    have hinst' : g.instances = instances := hinst
    have hcomplete : g.instances.length = g.declared := by rw [hinst', hdeclared']
    have hentry : Settles d ⟨g :: groups, top⟩
        (attach (.group g.layout.countTag g.instances) ⟨groups, top⟩) [g.level] :=
      settles_close hg hcomplete
    have hclose := hsettles.trans hentry
    rw [OpenGroup.level, hlayout', hdeclared', hinst', hcountTag] at hclose
    refine ⟨last, ?_, ?_⟩
    · rw [fields, List.map_cons]
      exact placeAll_cons hcount hlast
    · rw [hscope] at hgroup
      simp only [left, hgroup]
      exact hclose

/-- The records of entries in form attach them one after another. -/
theorem placeAll_list : ∀ (entries : List Entry) {scope : Option Layout} {before : Nest}
    {draft target : BodyDraft}, target.HasPlace → target.nest.scope = scope →
    draft.Settles d target before → ListInForm d scope before entries →
    (fieldsOf entries).length ≤ 0x7FFFFFFFFFFFFFFF →
    ∃ last, draft.placeAll d ((fieldsOf entries).map Field.record) = .ok last ∧
      last.Settles d (target.attachAll entries) (leftByList d scope before entries)
  | [], scope, before, draft, target, _, _, hsettles, _, _ => by
    rw [fieldsOf, leftByList]
    exact ⟨draft, rfl, hsettles⟩
  | entry :: rest, scope, before, draft, target, hplace, hscope, hsettles, hform, hsize => by
    rw [ListInForm] at hform
    obtain ⟨hrefuses, hentry, hrest⟩ := hform
    rw [fieldsOf, List.length_append] at hsize
    obtain ⟨next, hnext, hnextSettles⟩ := placeAll_entry entry hplace hscope hentry (by omega)
    have hscope' : (target.attach entry).nest.scope = scope := by
      rw [nest_attach hplace]
      exact hscope
    obtain ⟨last, hlast, hlastSettles⟩ :=
      placeAll_list rest (hasPlace_attach hplace entry) hscope' hnextSettles hrest (by omega)
    -- The open groups give way to the first record of the entry.
    obtain ⟨f, more, hfields, hf⟩ := exists_fields_eq_cons entry
    have hdraft : draft.placeAll d (entry.fields.map Field.record) = .ok next := by
      rw [← hf] at hrefuses
      rw [hfields, List.map_cons] at hnext ⊢
      rw [placeAll_eq_of_settles hsettles hrefuses]
      exact hnext
    rw [fieldsOf, List.map_append, leftByList]
    exact ⟨last, placeAll_append hdraft hlast, hlastSettles⟩

/-- The records of instances in form add them to the group that they are in. -/
theorem placeAll_instances : ∀ (instances : List (List Entry)) {before : Nest}
    {draft : BodyDraft} {g : OpenGroup} {outer : List OpenGroup} {top : List Entry},
    HasPlace ⟨outer, top⟩ → g.IsSound → draft.Settles d ⟨g :: outer, top⟩ before →
    InstancesInForm d g.layout before instances →
    (fieldsOfInstances instances).length ≤ 0x7FFFFFFFFFFFFFFF →
    ∃ last g', draft.placeAll d ((fieldsOfInstances instances).map Field.record) = .ok last ∧
      last.Settles d ⟨g' :: outer, top⟩ (leftByInstances d g.layout before instances) ∧
      g'.IsSound ∧ g'.layout = g.layout ∧ g'.declared = g.declared ∧
      g'.instances = g.instances ++ instances
  | [], before, draft, g, outer, top, _, hg, hsettles, _, _ => by
    rw [fieldsOfInstances, leftByInstances]
    exact ⟨draft, g, rfl, hsettles, hg, rfl, rfl, (List.append_nil _).symm⟩
  | (.field f :: others) :: rest, before, draft, g, outer, top, hplace, hg, hsettles, hform,
      hsize => by
    rw [InstancesInForm, InstanceInForm] at hform
    obtain ⟨hrefuses, ⟨htag, -, hreads, hothers⟩, hrest⟩ := hform
    rw [leftByList, left] at hrest
    rw [fieldsOfInstances, fieldsOf, fields, List.length_append, List.length_append] at hsize
    have hsound : IsSound ⟨g :: outer, top⟩ := isSound_cons hg hplace top
    have hbegun : HasPlace ⟨g.begin f :: outer, top⟩ := by
      intro g' hg'
      rcases List.mem_cons.1 hg' with rfl | hmem
      · rfl
      · exact hplace g' hmem
    have hfirst : draft.place d f.record = .ok ⟨g.begin f :: outer, top⟩ := by
      rw [← htag] at hrefuses
      rw [hsettles.place f.record hrefuses]
      exact place_delimiter hsound htag hreads
    obtain ⟨next, hnext, hnextSettles⟩ :=
      placeAll_list others hbegun rfl (.refl _ []) hothers (by omega)
    rw [OpenGroup.begin_eq, attachAll_withInstance] at hnextSettles
    obtain ⟨last, g', hlast, hlastSettles, hg', hlayout, hdeclared, hinst⟩ :=
      placeAll_instances rest hplace (OpenGroup.isSound_of_isSome rfl) hnextSettles hrest (by omega)
    refine ⟨last, g', ?_, ?_, hg', hlayout, hdeclared, ?_⟩
    · rw [fieldsOfInstances, fieldsOf, fields, List.singleton_append, List.cons_append,
        List.map_cons, List.map_append]
      exact placeAll_cons hfirst (placeAll_append hnext hlast)
    · rw [leftByInstances, leftByList, left]
      exact hlastSettles
    · rw [hinst, OpenGroup.instances_withInstance, List.append_assoc]
      rfl
  | [] :: _, _, _, _, _, _, _, _, _, hform, _ => by
    rw [InstancesInForm] at hform
    exact absurd hform.2.1 (by simp [InstanceInForm])
  | (.group _ _ :: _) :: _, _, _, _, _, _, _, _, _, hform, _ => by
    rw [InstancesInForm] at hform
    exact absurd hform.2.1 (by simp [InstanceInForm])

end

/-- A body in form is read back from its records. -/
theorem placeAll_body {entries : List Entry} (h : ListInForm d none [] entries)
    (hsize : (fieldsOf entries).length ≤ 0x7FFFFFFFFFFFFFFF) :
    ∃ last, placeAll d {} ((fieldsOf entries).map Field.record) = .ok last ∧
      last.close = .ok entries := by
  have hplace : HasPlace ⟨[], []⟩ := by simp [HasPlace]
  have hempty : Settles d ⟨[], []⟩ ⟨[], []⟩ [] := .refl _ []
  obtain ⟨last, hlast, hsettles⟩ := placeAll_list entries hplace rfl hempty h hsize
  refine ⟨last, hlast, ?_⟩
  rw [hsettles.close, attachAll_nil, close_nil, List.nil_append]

end Entry

end FixEngine
