import FixEngine.Proofs.Wire.Form
import FixEngine.Proofs.Wire.BodyRun

/-!
# The groups of a message that is read

The layouts of a dictionary are a grammar for the records of a body.  A message
that is handed over has the entries that this grammar gives for its records: a
group has as many instances as its count announces, each of them begins with the
delimiter of its layout, and everything in it has its place there.
-/

namespace FixEngine

namespace Entry

mutual

/-- Records spell an entry at the top of a body or inside the instances of a
layout. -/
inductive Spelled (d : Dictionary) : Option Layout → List Record → Entry → Prop
  | field {scope : Option Layout} {r : Record} {f : Field} (hholds : d.HoldsField r.tag scope)
      (hread : BodyDraft.readField d r = .ok f) : Spelled d scope [r] (.field f)
  | group {scope : Option Layout} {r : Record} {layout : Layout} {records : List Record}
      {instances : List (List Entry)} (hlayout : d.group? r.tag scope = some layout)
      (hcount : Value.readCount r.value = .ok instances.length)
      (hinstances : InstancesSpelled d layout records instances) :
      Spelled d scope (r :: records) (.group r.tag instances)

/-- Records spell entries one after another. -/
inductive ListSpelled (d : Dictionary) : Option Layout → List Record → List Entry → Prop
  | nil {scope : Option Layout} : ListSpelled d scope [] []
  | snoc {scope : Option Layout} {records rest : List Record} {entries : List Entry}
      {entry : Entry} (hentries : ListSpelled d scope records entries)
      (hentry : Spelled d scope rest entry) :
      ListSpelled d scope (records ++ rest) (entries ++ [entry])

/-- Records spell instances of a layout, each of which begins with the
delimiter. -/
inductive InstancesSpelled (d : Dictionary) : Layout → List Record → List (List Entry) → Prop
  | nil {layout : Layout} : InstancesSpelled d layout [] []
  | snoc {layout : Layout} {records rest : List Record} {r : Record} {f : Field}
      {instances : List (List Entry)} {entries : List Entry}
      (hinstances : InstancesSpelled d layout records instances)
      (hdelimiter : r.tag = layout.delimiter) (hread : BodyDraft.readField d r = .ok f)
      (hentries : ListSpelled d (some layout) rest entries) :
      InstancesSpelled d layout (records ++ r :: rest) (instances ++ [.field f :: entries])

end

variable {d : Dictionary} {layout : Layout} {records rest : List Record}

/-- The last instance goes on with an entry. -/
theorem InstancesSpelled.extend {finished : List (List Entry)} {entries : List Entry}
    {entry : Entry}
    (h : InstancesSpelled d layout records (finished ++ [entries]))
    (hentry : Spelled d (some layout) rest entry) :
    InstancesSpelled d layout (records ++ rest) (finished ++ [entries ++ [entry]]) := by
  generalize hinstances : finished ++ [entries] = instances at h
  cases h with
  | nil => simp at hinstances
  | snoc hfinished hdelimiter hread hentries =>
    obtain ⟨rfl, hlast⟩ := List.append_inj' hinstances rfl
    cases hlast
    rw [List.append_assoc, List.cons_append, List.cons_append]
    exact .snoc hfinished hdelimiter hread (.snoc hentries hentry)

end Entry

namespace BodyDraft

/-- Records spell a body that is still arriving, in which the instances of open
groups have yet to be counted. -/
inductive Spelled (d : Dictionary) : List Record → BodyDraft → Prop
  | nil {records : List Record} {entries : List Entry}
      (hentries : Entry.ListSpelled d none records entries) : Spelled d records ⟨[], entries⟩
  | cons {records rest : List Record} {r : Record} {g : OpenGroup} {outer : List OpenGroup}
      {entries : List Entry} (houter : Spelled d records ⟨outer, entries⟩)
      (hlayout : d.group? r.tag (nest ⟨outer, entries⟩).scope = some g.layout)
      (hcount : Value.readCount r.value = .ok g.declared)
      (hinstances : Entry.InstancesSpelled d g.layout rest g.instances) :
      Spelled d (records ++ r :: rest) ⟨g :: outer, entries⟩

variable {d : Dictionary} {draft last : BodyDraft} {records rest : List Record} {r : Record}
  {g : OpenGroup} {outer : List OpenGroup} {entries : List Entry} {entry : Entry} {f : Field}

/-- An entry that has its place where it comes to stand is spelled after the
rest. -/
theorem Spelled.attach (h : draft.Spelled d records) (hplace : draft.HasPlace)
    (hentry : Entry.Spelled d draft.nest.scope rest entry) :
    (draft.attach entry).Spelled d (records ++ rest) := by
  cases h with
  | nil hentries => exact .nil (.snoc hentries hentry)
  | @cons records inside r g outer entries houter hlayout hcount hinstances =>
    obtain ⟨current, hcurrent⟩ := Option.isSome_iff_exists.1 (hplace g List.mem_cons_self)
    rw [OpenGroup.instances, hcurrent] at hinstances
    have hadded : Entry.InstancesSpelled d g.layout (inside ++ rest) (g.add entry).instances := by
      rw [OpenGroup.instances_add hcurrent]
      exact hinstances.extend hentry
    rw [List.append_assoc, List.cons_append]
    exact .cons houter hlayout hcount hadded

/-- A delimiter begins an instance. -/
theorem Spelled.begin (h : Spelled d records ⟨g :: outer, entries⟩)
    (hdelimiter : r.tag = g.layout.delimiter) (hread : readField d r = .ok f) :
    Spelled d (records ++ [r]) ⟨g.begin f :: outer, entries⟩ := by
  cases h with
  | cons houter hlayout hcount hinstances =>
    rw [List.append_assoc, List.cons_append]
    exact .cons houter hlayout hcount (.snoc hinstances hdelimiter hread .nil)

/-- Closing groups spells nothing new. -/
theorem ClosesTo.spelled (h : draft.ClosesTo last) (hd : d.IsRegistered) (hsound : draft.IsSound)
    (hspelled : draft.Spelled d records) : last.Spelled d records := by
  induction h with
  | refl => exact hspelled
  | @step g outer entries entry last hclose _ ih =>
    have hplace : HasPlace ⟨outer, entries⟩ := hsound.outer
    obtain ⟨hcomplete, rfl⟩ := close_eq_ok hclose
    -- The closed group has as many instances as its count, so it is an entry of what is
    -- around it.
    apply ih (hasPlace_attach hplace _).isSound
    cases hspelled with
    | cons houter hlayout hcount hinstances =>
      rw [← hcomplete] at hcount
      rw [hd.countTag_of_group? hlayout]
      exact houter.attach hplace (.group hlayout hcount hinstances)

/-- A tag that is accepted and opens no group is that of a field. -/
theorem holdsField_of_accepts {tag : Tag} (hsound : IsSound ⟨g :: outer, entries⟩)
    (haccepts : g.level.accepts tag = true) (htag : tag ≠ g.layout.delimiter)
    (hlayout : d.group? tag (some g.layout) = none) : d.HoldsField tag (some g.layout) := by
  rcases placeIn_cases (hsound.groups g List.mem_cons_self) tag with ⟨-, hdelimiter, -⟩ |
    ⟨-, -, -, hmember, -⟩ | ⟨layout, -, -, -, hmember, hnested, -⟩ | ⟨-, hrefuses⟩
  · exact absurd hdelimiter htag
  · exact ⟨htag, hmember⟩
  · rw [Dictionary.group?, if_neg (by simp [htag, hmember]), hnested] at hlayout
    contradiction
  · rw [hrefuses] at haccepts
    contradiction

/-- A field that is put in place is spelled after the rest. -/
theorem Spelled.putField (h : draft.Spelled d records) (hsound : draft.IsSound)
    (haccepts : draft.Accepts r.tag) (hlayout : d.group? r.tag draft.nest.scope = none)
    (hread : readField d r = .ok f) : (draft.putField f).Spelled d (records ++ [r]) := by
  obtain ⟨groups, entries⟩ := draft
  have htag := tag_of_readField hread
  cases groups with
  | nil => exact h.attach (by simp [HasPlace]) (.field hlayout hread)
  | cons g outer =>
    rw [BodyDraft.putField]
    split
    · next hdelimiter => exact h.begin (htag ▸ hdelimiter) hread
    · next hdelimiter =>
      rw [htag] at hdelimiter
      have hgaccepts := haccepts g rfl
      exact h.attach (hasPlace_of_accepts hsound hgaccepts hdelimiter)
        (.field (holdsField_of_accepts hsound hgaccepts hdelimiter hlayout) hread)

theorem Spelled.listSpelled (h : Spelled d records ⟨[], entries⟩) :
    Entry.ListSpelled d none records entries := by
  cases h
  assumption

/-- The records that arrive are spelled after those before them. -/
theorem Run.spelled {raws : List Bytes} (h : Run d draft raws last) (hd : d.IsRegistered)
    (hspelled : draft.Spelled d records) : last.Spelled d (records ++ Record.bodyOf raws) := by
  induction h generalizing records with
  | nil =>
    rw [Record.bodyOf, List.filterMap_nil, List.filter_nil, List.append_nil]
    exact hspelled
  | @cons draft next last raw r rest hparse hsound hfollows hnest hrest ih =>
    cases hfollows with
    | header hheader =>
      rw [Record.bodyOf_cons_of_aside hparse (by rw [hheader]; rfl)]
      exact ih hspelled
    | trailer hheader htrailer hcloses =>
      rw [Record.bodyOf_cons_of_aside hparse (by rw [htrailer, Bool.or_true])]
      exact ih (hcloses.spelled hd hsound hspelled)
    | opened hheader htrailer hcloses hsettled hlayout hcount =>
      rw [Record.bodyOf_cons_of_body hparse hheader htrailer, List.append_cons]
      exact ih (.cons (hcloses.spelled hd hsound hspelled) hlayout hcount .nil)
    | held hheader htrailer hcloses hsettled haccepts hlayout hread =>
      rw [Record.bodyOf_cons_of_body hparse hheader htrailer, List.append_cons]
      exact ih ((hcloses.spelled hd hsound hspelled).putField (hcloses.isSound hsound) haccepts
        hlayout hread)

end BodyDraft

namespace Assembler

variable {d : Dictionary} {records : List Bytes} {k : Nat} {m : Message}

/-- The body of a message that is handed over is spelled by the records of the
body, by the layouts that are registered. -/
theorem spelled_of_emits (hd : d.IsRegistered) (h : Emits d records k m) :
    ∃ s : Span records k, s.IsSealed d ∧
      Entry.ListSpelled d none (Record.bodyOf s.inner) m.body := by
  obtain ⟨s, hsealed, body, hrun, hsound, hcloses⟩ := exists_run_of_emits h
  have hbody : body.Spelled d (Record.bodyOf s.inner) := hrun.spelled hd (.nil .nil)
  exact ⟨s, hsealed, (hcloses.spelled hd hsound hbody).listSpelled⟩

/-- The sample has a group of parties and a field. -/
theorem spelled_of_emits_sample :
    ∃ m, Dictionary.usual.IsRegistered ∧ Emits .usual sampleRecords 9 m ∧
      m.body.map Entry.tag = [453, 58] ∧
      ∃ s : Span sampleRecords 9, s.IsSealed .usual ∧
        Entry.ListSpelled .usual none (Record.bodyOf s.inner) m.body := by
  obtain ⟨m, hemits, htags⟩ : ∃ m, Emits .usual sampleRecords 9 m ∧
      m.body.map Entry.tag = [453, 58] := ⟨_, rfl, rfl⟩
  have hd : Dictionary.usual.IsRegistered := Dictionary.isRegistered_standard .fix44
  exact ⟨m, hd, hemits, htags, spelled_of_emits hd hemits⟩

end Assembler

end FixEngine
