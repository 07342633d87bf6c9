import FixEngine.Wire.Groups

/-!
# Filling a body step by step

A record is placed by closing open groups, one at a time and the innermost
first, until one of them takes it or none is left.  The lemmas here say what one
such step does.  `BodyDraft.attach` is the only way in which an entry comes into
the body, and `BodyDraft.IsSound` says that there is always an instance for it
to come into.
-/

namespace FixEngine

namespace OpenGroup

/-- A group without a current instance has no instance yet. -/
def IsSound (g : OpenGroup) : Prop := g.current = none → g.finished = []

theorem isSound_start (layout : Layout) (declared : Nat) : (start layout declared).IsSound :=
  fun _ => rfl

theorem isSound_of_isSome {g : OpenGroup} (h : g.current.isSome) : g.IsSound := by
  intro hnone
  rw [hnone] at h
  contradiction

@[simp]
theorem instances_begin (g : OpenGroup) (f : Field) :
    (g.begin f).instances = g.instances ++ [[.field f]] := rfl

theorem instances_add {g : OpenGroup} {entries : List Entry} (h : g.current = some entries)
    (entry : Entry) : (g.add entry).instances = g.finished ++ [entries ++ [entry]] := by
  simp [instances, add, h]

/-- An entry goes into an instance that is there, so no instance is added. -/
theorem length_instances_add {g : OpenGroup} (h : g.current.isSome) (entry : Entry) :
    (g.add entry).instances.length = g.instances.length := by
  obtain ⟨entries, hentries⟩ := Option.isSome_iff_exists.1 h
  rw [instances_add hentries, instances, hentries, List.length_append, List.length_append]
  rfl

theorem instances_eq_nil_iff {g : OpenGroup} (h : g.IsSound) :
    g.instances = [] ↔ g.current = none := by
  rw [instances, List.append_eq_nil_iff]
  constructor
  · rintro ⟨-, hcurrent⟩
    exact Option.toList_eq_nil_iff.1 hcurrent
  · intro hcurrent
    exact ⟨h hcurrent, by rw [hcurrent]; rfl⟩

end OpenGroup

namespace BodyDraft

variable {d : Dictionary} {r : Record} {entries : List Entry}
  {g : OpenGroup} {outer : List OpenGroup}

/-- Every group is sound, and those around another one have a current
instance, which that one is in. -/
structure IsSound (draft : BodyDraft) : Prop where
  groups : ∀ g ∈ draft.groups, g.IsSound
  outer : ∀ g ∈ draft.groups.tail, g.current.isSome

theorem isSound_nil (entries : List Entry) : IsSound ⟨[], entries⟩ :=
  ⟨by simp, by simp⟩

theorem isSound_cons (hg : g.IsSound) (houter : ∀ g' ∈ outer, g'.current.isSome)
    (entries : List Entry) : IsSound ⟨g :: outer, entries⟩ := by
  refine ⟨?_, houter⟩
  intro g' hg'
  rcases List.mem_cons.1 hg' with rfl | hmem
  · exact hg
  · exact OpenGroup.isSound_of_isSome (houter g' hmem)

/-- Adds an entry to the current instance of the innermost group, or to the
top of the body. -/
def attach (entry : Entry) : BodyDraft → BodyDraft
  | ⟨[], entries⟩ => ⟨[], entries ++ [entry]⟩
  | ⟨g :: outer, entries⟩ => ⟨g.add entry :: outer, entries⟩

theorem length_groups_attach (draft : BodyDraft) (entry : Entry) :
    (draft.attach entry).groups.length = draft.groups.length := by
  obtain ⟨groups, entries⟩ := draft
  cases groups with
  | nil => rfl
  | cons g outer => rfl

/-- Induction along the closing of groups: what holds without open groups, and
holds of a body whenever it holds once its innermost group is closed, always
holds. -/
@[elab_as_elim]
theorem closingInduction {motive : BodyDraft → Prop}
    (nil : ∀ entries, motive ⟨[], entries⟩)
    (cons : ∀ g outer entries, (∀ entry, motive (attach entry ⟨outer, entries⟩)) →
      motive ⟨g :: outer, entries⟩)
    (draft : BodyDraft) : motive draft := by
  obtain ⟨groups, entries⟩ := draft
  induction hlength : groups.length generalizing groups entries with
  | zero =>
    cases groups with
    | nil => exact nil entries
    | cons g outer => contradiction
  | succ n ih =>
    cases groups with
    | nil => contradiction
    | cons g outer =>
      apply cons
      intro entry
      have hattach := length_groups_attach ⟨outer, entries⟩ entry
      exact ih _ _ (hattach.trans (Nat.succ.inj hlength))

/-- An entry finds a place to go to. -/
def HasPlace (draft : BodyDraft) : Prop := ∀ g ∈ draft.groups, g.current.isSome

theorem HasPlace.isSound {draft : BodyDraft} (h : draft.HasPlace) : draft.IsSound :=
  ⟨fun g hg => OpenGroup.isSound_of_isSome (h g hg),
    fun g hg => h g (List.mem_of_mem_tail hg)⟩

theorem hasPlace_attach {draft : BodyDraft} (h : draft.HasPlace) (entry : Entry) :
    (draft.attach entry).HasPlace := by
  obtain ⟨groups, entries⟩ := draft
  cases groups with
  | nil => exact h
  | cons g outer =>
    intro g' hg'
    rcases List.mem_cons.1 hg' with rfl | hmem
    · rfl
    · exact h g' (List.mem_cons_of_mem g hmem)

/-! ### Placing -/

theorem placeRecord_some (child : Entry) (groups : List OpenGroup) :
    placeRecord d entries r (some child) groups = (attach child ⟨groups, entries⟩).place d r := by
  cases groups with
  | nil => simp [placeRecord, attach, place]
  | cons g outer => rfl

theorem place_nil :
    place ⟨[], entries⟩ d r =
      match d.layout? r.tag with
      | some layout => do return ⟨[← openGroup layout r], entries⟩
      | none => do return attach (.field (← readField d r)) ⟨[], entries⟩ := by
  simp only [place, placeRecord, Option.toList_none, List.append_nil]
  rfl

theorem place_cons :
    place ⟨g :: outer, entries⟩ d r =
      match placeIn g r.tag with
      | .delimiter => do return ⟨g.begin (← readField d r) :: outer, entries⟩
      | .member => do return attach (.field (← readField d r)) ⟨g :: outer, entries⟩
      | .count layout => do return ⟨(← openGroup layout r) :: g :: outer, entries⟩
      | .outside => g.close >>= fun entry => (attach entry ⟨outer, entries⟩).place d r := by
  simp only [place, placeRecord, OpenGroup.settle]
  cases placeIn g r.tag with
  | outside => cases g.close with
    | ok entry => exact placeRecord_some entry outer
    | error fault => rfl
  | delimiter => rfl
  | member => rfl
  | count layout => rfl

/-! ### Closing -/

theorem closeGroups_some (child : Entry) (groups : List OpenGroup) :
    closeGroups entries (some child) groups = (attach child ⟨groups, entries⟩).close := by
  cases groups with
  | nil => simp [closeGroups, attach, close]
  | cons g outer => rfl

@[simp]
theorem close_nil : close ⟨[], entries⟩ = .ok entries := by
  simp [close, closeGroups]

theorem close_cons :
    close ⟨g :: outer, entries⟩ =
      g.close >>= fun entry => (attach entry ⟨outer, entries⟩).close := by
  simp only [close, closeGroups, OpenGroup.settle]
  cases g.close with
  | ok entry => exact closeGroups_some entry outer
  | error fault => rfl

end BodyDraft

end FixEngine
