import FixEngine.Proofs.Wire.Replay
import FixEngine.Proofs.Wire.RoundTrip

/-!
# Taking up a body again

The records that a body is written as are taken up like those that it was read from, but
for the trailer records that stood between them.  A trailer record ends all groups.
Without it they are still open, which makes a difference just to a record that they
would take: it goes into a group instead of beginning an entry.
-/

namespace FixEngine

/-- Records keep groups apart if the first record of the body that comes after trailer records
belongs to none of the groups that they ended.  It is only the first one that matters: without
the trailer records it would close these groups, and a later record finds none of them open
either way. -/
def Nest.KeepsApart (d : Dictionary) : Nest → Nest → List Record → Prop
  | _, _, [] => True
  | nest, ended, r :: rest =>
    if r.tag.isHeader then KeepsApart d nest ended rest
    else if r.tag.isTrailer then KeepsApart d [] (ended ++ nest) rest
    else ended.Refuses r.tag ∧ KeepsApart d (nest.after d r) [] rest

namespace Nest

instance decidableKeepsApart (d : Dictionary) :
    ∀ (nest ended : Nest) (records : List Record), Decidable (KeepsApart d nest ended records)
  | _, _, [] => .isTrue trivial
  | nest, ended, r :: rest =>
    have := decidableKeepsApart d nest ended rest
    have := decidableKeepsApart d [] (ended ++ nest) rest
    have := decidableKeepsApart d (nest.after d r) [] rest
    inferInstanceAs (Decidable (if r.tag.isHeader then KeepsApart d nest ended rest
      else if r.tag.isTrailer then KeepsApart d [] (ended ++ nest) rest
      else ended.Refuses r.tag ∧ KeepsApart d (nest.after d r) [] rest))

variable {d : Dictionary} {nest ended : Nest} {r : Record} {rest : List Record}

theorem keepsApart_cons_of_header (hheader : r.tag.isHeader = true) :
    KeepsApart d nest ended (r :: rest) ↔ KeepsApart d nest ended rest := by
  rw [KeepsApart, if_pos hheader]

theorem keepsApart_cons_of_trailer (hheader : r.tag.isHeader = false)
    (htrailer : r.tag.isTrailer = true) :
    KeepsApart d nest ended (r :: rest) ↔ KeepsApart d [] (ended ++ nest) rest := by
  rw [KeepsApart, hheader, if_neg Bool.false_ne_true, if_pos htrailer]

theorem keepsApart_cons_of_body (hheader : r.tag.isHeader = false)
    (htrailer : r.tag.isTrailer = false) :
    KeepsApart d nest ended (r :: rest) ↔
      ended.Refuses r.tag ∧ KeepsApart d (nest.after d r) [] rest := by
  rw [KeepsApart, hheader, if_neg Bool.false_ne_true, htrailer, if_neg Bool.false_ne_true]

theorem keepsApart_of_trailers {records : List Record}
    (h : ∀ r ∈ records, r.tag.isTrailer = true) : KeepsApart d nest ended records := by
  induction records generalizing nest ended with
  | nil => trivial
  | cons r rest ih =>
    obtain ⟨hr, hrest⟩ := List.forall_mem_cons.1 h
    cases hheader : r.tag.isHeader with
    | true => exact (keepsApart_cons_of_header hheader).2 (ih hrest)
    | false => exact (keepsApart_cons_of_trailer hheader hr).2 (ih hrest)

/-- Records whose trailer comes last keep groups apart. -/
theorem keepsApart_append {left right : List Record}
    (hleft : ∀ r ∈ left, r.tag.isHeader = true ∨ r.tag.isTrailer = false)
    (hright : ∀ r ∈ right, r.tag.isTrailer = true) : KeepsApart d nest [] (left ++ right) := by
  induction left generalizing nest with
  | nil => exact keepsApart_of_trailers hright
  | cons r rest ih =>
    obtain ⟨hr, hrest⟩ := List.forall_mem_cons.1 hleft
    rw [List.cons_append]
    cases hheader : r.tag.isHeader with
    | true => exact (keepsApart_cons_of_header hheader).2 (ih hrest)
    | false =>
      have htrailer : r.tag.isTrailer = false := by simpa [hheader] using hr
      exact (keepsApart_cons_of_body hheader htrailer).2 ⟨by simp [Refuses], ih hrest⟩

end Nest

/-- A tag leaves a group open that takes it. -/
theorem Nest.leftBy_ne_nil {nest : Nest} {tag : Tag} (h : ¬ nest.Refuses tag) :
    nest.leftBy tag ≠ [] := by
  intro hnil
  rw [leftBy, List.dropWhile_eq_nil_iff] at hnil
  refine h fun level hlevel => ?_
  simpa using hnil level hlevel

theorem Entry.length_fieldsOf_le {left right : List Entry} (h : left <+: right) :
    (fieldsOf left).length ≤ (fieldsOf right).length := by
  obtain ⟨rest, rfl⟩ := h
  rw [fieldsOf_append, List.length_append]
  exact Nat.le_add_right _ _

namespace BodyDraft

variable {d : Dictionary} {draft next last : BodyDraft} {r : Record} {records : List Record}
  {entries : List Entry}

/-! ### The entries at the top -/

theorem entries_isPrefix_attach (draft : BodyDraft) (entry : Entry) :
    draft.entries <+: (draft.attach entry).entries := by
  obtain ⟨groups, entries⟩ := draft
  cases groups with
  | nil => exact List.prefix_append entries [entry]
  | cons g outer => exact List.prefix_rfl

theorem ClosesTo.entries_isPrefix (h : draft.ClosesTo last) : draft.entries <+: last.entries := by
  induction h with
  | refl => exact List.prefix_rfl
  | @step g outer entries entry last _ _ ih =>
    exact (entries_isPrefix_attach ⟨outer, entries⟩ entry).trans ih

theorem entries_isPrefix_putField (draft : BodyDraft) (f : Field) :
    draft.entries <+: (draft.putField f).entries := by
  obtain ⟨groups, entries⟩ := draft
  cases groups with
  | nil => exact entries_isPrefix_attach _ _
  | cons g outer =>
    rw [putField]
    split
    · exact List.prefix_rfl
    · exact entries_isPrefix_attach _ _

theorem entries_isPrefix_put (h : draft.put d r = .ok next) : draft.entries <+: next.entries := by
  rw [put] at h
  split at h
  · obtain ⟨g, -, hnext⟩ := bind_eq_ok_iff.1 h
    cases hnext
    exact List.prefix_rfl
  · obtain ⟨f, -, hnext⟩ := bind_eq_ok_iff.1 h
    cases hnext
    exact entries_isPrefix_putField draft f

theorem entries_isPrefix_place (h : draft.IsSound) (hplace : draft.place d r = .ok next) :
    draft.entries <+: next.entries := by
  obtain ⟨settled, hcloses, -, -, hput⟩ := exists_put_of_place h hplace
  exact hcloses.entries_isPrefix.trans (entries_isPrefix_put hput)

theorem isSound_of_place (h : draft.IsSound) (hplace : draft.place d r = .ok next) :
    next.IsSound := by
  rcases place_cases (d := d) (r := r) h with ⟨-, -, next', hplace', hnext, -⟩ | ⟨-, fault, hplace'⟩
  · cases hplace'.symm.trans hplace
    exact hnext
  · have hboth := hplace'.symm.trans hplace
    contradiction

theorem entries_isPrefix_placeAll (h : draft.IsSound)
    (hplaced : draft.placeAll d records = .ok last) : draft.entries <+: last.entries := by
  induction records generalizing draft with
  | nil =>
    cases hplaced
    exact List.prefix_rfl
  | cons r rest ih =>
    obtain ⟨next, hplace, hrest⟩ := foldlM_cons_eq_ok_iff.1 hplaced
    exact (entries_isPrefix_place h hplace).trans (ih (isSound_of_place h hplace) hrest)

/-! ### The group at the top -/

/-- What is put into an open group stays below the top. -/
theorem entries_of_put (hopen : draft.groups ≠ []) (h : draft.put d r = .ok next) :
    next.groups ≠ [] ∧ next.entries = draft.entries := by
  obtain ⟨groups, entries⟩ := draft
  cases groups with
  | nil => contradiction
  | cons g outer =>
    rw [put] at h
    split at h
    · obtain ⟨opened, -, hnext⟩ := bind_eq_ok_iff.1 h
      cases hnext
      exact ⟨List.cons_ne_nil _ _, rfl⟩
    · obtain ⟨f, -, hnext⟩ := bind_eq_ok_iff.1 h
      cases hnext
      rw [putField]
      split
      · exact ⟨List.cons_ne_nil _ _, rfl⟩
      · exact ⟨List.cons_ne_nil _ _, rfl⟩

/-- Closing leaves a group open, or the outermost one has become an entry. -/
theorem ClosesTo.cases_top (h : draft.ClosesTo last) (hopen : draft.groups ≠ []) :
    (last.groups ≠ [] ∧ last.entries = draft.entries) ∨
      ∃ entry, last = ⟨[], draft.entries ++ [entry]⟩ := by
  induction h with
  | refl => exact .inl ⟨hopen, rfl⟩
  | @step g outer entries entry last _ hrest ih =>
    cases outer with
    | nil =>
      cases hrest with
      | refl => exact .inr ⟨entry, rfl⟩
    | cons g' outer => exact ih (List.cons_ne_nil _ _)

/-- A body with open groups has fields beyond those of its entries. -/
theorem length_fieldsOf_entries_lt (hopen : draft.groups ≠ []) :
    (Entry.fieldsOf draft.entries).length < draft.fields.length := by
  obtain ⟨groups, entries⟩ := draft
  obtain ⟨outer, g, rfl⟩ := (List.eq_nil_or_concat groups).resolve_left hopen
  simp only [fields, List.concat_eq_append, List.reverse_append, List.reverse_singleton,
    List.flatMap_append, List.flatMap_singleton, OpenGroup.fields, List.length_append,
    List.length_cons]
  omega

/-- The outermost open group becomes the next entry, with all fields that the body has by
now. -/
theorem exists_entry_of_placeAll (hd : d.IsRegistered) (h : draft.IsSound)
    (hopen : draft.groups ≠ []) (hplaced : draft.placeAll d records = .ok last)
    (hclose : last.close = .ok entries) :
    ∃ entry, draft.entries ++ [entry] <+: entries ∧
      draft.fields.length ≤ (Entry.fieldsOf (draft.entries ++ [entry])).length := by
  induction records generalizing draft with
  | nil =>
    cases hplaced
    have hcloses := closesTo_of_close hclose
    have hfields := hcloses.fields_eq
    rcases hcloses.cases_top hopen with ⟨hstill, -⟩ | ⟨entry, hlast⟩
    · contradiction
    · cases hlast
      rw [fields_nil] at hfields
      exact ⟨entry, List.prefix_rfl, by rw [hfields]⟩
  | cons r rest ih =>
    obtain ⟨next, hplace, hrest⟩ := foldlM_cons_eq_ok_iff.1 hplaced
    have hnext := isSound_of_place h hplace
    obtain ⟨f, hf⟩ := exists_adds_of_place hd h hplace
    obtain ⟨settled, hcloses, -, -, hput⟩ := exists_put_of_place h hplace
    rcases hcloses.cases_top hopen with ⟨hstill, hentries⟩ | ⟨entry, rfl⟩
    · obtain ⟨hnextOpen, hnextEntries⟩ := entries_of_put hstill hput
      obtain ⟨entry, hfront, hlength⟩ := ih hnext hnextOpen hrest
      rw [hnextEntries, hentries] at hfront hlength
      rw [hf.fields, List.length_append] at hlength
      exact ⟨entry, hfront, by omega⟩
    · have hfields := hcloses.fields_eq
      rw [fields_nil] at hfields
      have hlast := entries_isPrefix_placeAll hnext hrest
      have hend := (closesTo_of_close hclose).entries_isPrefix
      exact ⟨entry, ((entries_isPrefix_put hput).trans hlast).trans hend, by rw [hfields]⟩

/-! ### Without trailer records -/

/-- A body trails another one if it is the same, but for groups that trailer records ended
in that one and that are still open in it. -/
structure Trails (d : Dictionary) (body draft : BodyDraft) (ended : Nest) : Prop where
  settles : body.Settles d draft ended
  closes : body.ClosesTo draft
  nest : body.nest = ended ++ draft.nest
  groups : ended ≠ [] → draft.groups = []

theorem Trails.refl (draft : BodyDraft) : draft.Trails d draft [] :=
  ⟨.refl draft [], .refl draft, rfl, fun h => absurd rfl h⟩

theorem ClosesTo.trans (h : draft.ClosesTo next) (h' : next.ClosesTo last) :
    draft.ClosesTo last := by
  induction h with
  | refl => exact h'
  | step hclose _ ih => exact .step hclose (ih h')

/-- It trails further behind when a trailer record ends all groups. -/
theorem Trails.close {body : BodyDraft} {ended : Nest} (h : body.Trails d draft ended)
    (hsound : draft.IsSound) (hclose : draft.close = .ok entries) :
    body.Trails d ⟨[], entries⟩ (ended ++ draft.nest) where
  settles := h.settles.trans (settles_nest hsound hclose)
  closes := h.closes.trans (closesTo_of_close hclose)
  nest := by
    rw [h.nest]
    exact (List.append_nil _).symm
  groups := fun _ => rfl

/-- A record that belongs to a group that is still open does not begin an entry, as it
does without the group. -/
theorem Trails.not_close_placeAll (hd : d.IsRegistered) {body : BodyDraft} {ended : Nest}
    (h : body.Trails d draft ended) (hsound : body.IsSound) (hfront : draft.entries <+: entries)
    (htaken : ¬ ended.Refuses r.tag) (hplaced : body.placeAll d (r :: records) = .ok last) :
    last.close ≠ .ok entries := by
  intro hclose
  obtain ⟨next, hplace, hrest⟩ := foldlM_cons_eq_ok_iff.1 hplaced
  obtain ⟨f, hf⟩ := exists_adds_of_place hd hsound hplace
  obtain ⟨settled, hcloses, hsettled, -, hput⟩ := exists_put_of_place hsound hplace
  have hended : ended ≠ [] := by
    rintro rfl
    exact htaken (by simp [Nest.Refuses])
  have hopen : body.groups ≠ [] := by
    intro hnone
    have hnest := h.nest
    rw [BodyDraft.nest, hnone] at hnest
    exact hended (List.append_eq_nil_iff.1 hnest.symm).1
  have hstill : settled.groups ≠ [] := by
    intro hnone
    have hrefuses : ¬ Nest.Refuses body.nest r.tag := by
      rw [h.nest]
      exact fun hall => htaken fun level hlevel => hall level (List.mem_append_left _ hlevel)
    refine Nest.leftBy_ne_nil hrefuses ?_
    rw [← hsettled, BodyDraft.nest, hnone]
    rfl
  have hentries : settled.entries = body.entries := by
    rcases hcloses.cases_top hopen with ⟨-, hentries⟩ | ⟨entry, rfl⟩
    · exact hentries
    · contradiction
  obtain ⟨hnextOpen, hnextEntries⟩ := entries_of_put hstill hput
  obtain ⟨entry, htop, hlength⟩ :=
    exists_entry_of_placeAll hd (isSound_of_place hsound hplace) hnextOpen hrest hclose
  rw [hnextEntries, hentries] at htop hlength
  have hsame : body.fields = Entry.fieldsOf draft.entries := by
    rw [← h.closes.fields_eq, BodyDraft.fields, h.groups hended]
    exact List.append_nil _
  -- The entries of `draft` end inside the last one of `body.entries ++ [entry]`.
  have hmore : (Entry.fieldsOf draft.entries).length <
      (Entry.fieldsOf (body.entries ++ [entry])).length := by
    rw [hf.fields, List.length_append, hsame] at hlength
    exact hlength
  have hfewer : (Entry.fieldsOf body.entries).length < (Entry.fieldsOf draft.entries).length := by
    rw [← hsame]
    exact length_fieldsOf_entries_lt hopen
  rcases List.prefix_or_prefix_of_prefix htop hfront with hle | hle
  · exact absurd (Entry.length_fieldsOf_le hle) (Nat.not_le.2 hmore)
  · rcases List.prefix_concat_iff.1 hle with heq | hle
    · rw [heq] at hmore
      exact absurd hmore (Nat.lt_irrefl _)
    · exact absurd (Entry.length_fieldsOf_le hle) (Nat.not_le.2 hfewer)

end BodyDraft

namespace MessageDraft

variable {d : Dictionary} {draft last : MessageDraft} {records : List Record}

theorem entries_isPrefix_addAll (h : draft.body.IsSound)
    (hadd : draft.addAll d records = .ok last) : draft.body.entries <+: last.body.entries := by
  induction records generalizing draft with
  | nil =>
    cases hadd
    exact List.prefix_rfl
  | cons r rest ih =>
    obtain ⟨next, hr, hrest⟩ := foldlM_cons_eq_ok_iff.1 hadd
    have hlater := ih (isSound_of_addRecord h hr).1 hrest
    refine List.IsPrefix.trans ?_ hlater
    cases adds_of_addRecord hr with
    | slot | header => exact List.prefix_rfl
    | trailer _ _ hclose => exact (BodyDraft.closesTo_of_close hclose).entries_isPrefix
    | body _ _ hplace => exact BodyDraft.entries_isPrefix_place h hplace

/-- The records of the fields that a body has come to hold fill it again just if the
records that it was filled by keep groups apart. -/
theorem exists_placeAll_iff_of_addAll (hd : d.IsRegistered) (h : draft.body.IsSound)
    (hadd : draft.addAll d records = .ok last) {entries : List Entry}
    (hclose : last.body.close = .ok entries) :
    ∃ added, last.body.fields = draft.body.fields ++ added ∧
      ((∀ f ∈ added, f.value.HasFourDigits) → ∀ {body : BodyDraft} {ended : Nest},
        body.IsSound → body.Trails d draft.body ended →
        ((∃ body', body.placeAll d (added.map Field.record) = .ok body' ∧
            body'.close = .ok entries) ↔
          Nest.KeepsApart d draft.body.nest ended records)) := by
  induction records generalizing draft with
  | nil =>
    cases hadd
    refine ⟨[], (List.append_nil _).symm, ?_⟩
    intro _ body ended _ htrails
    refine iff_of_true ⟨body, rfl, ?_⟩ trivial
    rw [htrails.settles.close, hclose]
  | cons r rest ih =>
    obtain ⟨next, hr, hrest⟩ := foldlM_cons_eq_ok_iff.1 hadd
    obtain ⟨hsound, hnest⟩ := isSound_of_addRecord h hr
    obtain ⟨added, hfields, hagain⟩ := ih hsound hrest
    have hfront := (entries_isPrefix_addAll h hadd).trans
      (BodyDraft.closesTo_of_close hclose).entries_isPrefix
    cases adds_of_addRecord hr with
    | slot hslot =>
      refine ⟨added, hfields, ?_⟩
      intro hyears body ended hbody htrails
      rw [Nest.keepsApart_cons_of_header (Slot.isHeader_of_ofTag? hslot)]
      exact hagain hyears hbody htrails
    | header _ hheader =>
      refine ⟨added, hfields, ?_⟩
      intro hyears body ended hbody htrails
      rw [Nest.keepsApart_cons_of_header hheader]
      exact hagain hyears hbody htrails
    | @trailer f entries' hheader htrailer hended =>
      have hsame : BodyDraft.fields ⟨[], entries'⟩ = draft.body.fields :=
        (BodyDraft.closesTo_of_close hended).fields_eq
      refine ⟨added, hsame ▸ hfields, ?_⟩
      intro hyears body ended hbody htrails
      rw [Nest.keepsApart_cons_of_trailer hheader htrailer]
      -- The groups that the record ends are still open without it.
      exact hagain hyears hbody (htrails.close h hended)
    | body hheader htrailer hplace =>
      obtain ⟨f, hf⟩ := BodyDraft.exists_adds_of_place hd h hplace
      refine ⟨f :: added, ?_, ?_⟩
      · rw [hfields, hf.fields, List.append_assoc, List.singleton_append]
      intro hyears body ended hbody htrails
      obtain ⟨hyear, hlater⟩ := List.forall_mem_cons.1 hyears
      have htag : f.record.tag = r.tag := hf.tag
      rw [Nest.keepsApart_cons_of_body hheader htrailer, List.map_cons, ← htag]
      by_cases hrefuses : ended.Refuses f.record.tag
      · have hfirst := (htrails.settles.place f.record hrefuses).trans (hf.place hyear)
        have hsecond := hagain hlater hsound (.refl _)
        rw [hnest] at hsecond
        rw [and_iff_right hrefuses, ← hsecond]
        simp only [BodyDraft.placeAll, foldlM_cons_eq_ok_iff, hfirst, Except.ok.injEq,
          exists_eq_left']
      · refine iff_of_false ?_ (fun hapart => hrefuses hapart.1)
        rintro ⟨body', hplaced, hend⟩
        exact htrails.not_close_placeAll hd hbody hfront hrefuses hplaced hend

end MessageDraft

end FixEngine
