import FixEngine.Proofs.Wire.Nesting
import FixEngine.Wire.Encoding

/-!
# Messages in the form of a dictionary

On the wire nothing marks the end of a group.  A body can be read back only if
every tag that follows a group belongs neither to it nor to a group that ends
with it.  This and the rest of what a dictionary expects of a message is stated
here on the message alone, without regard to how it is read.
-/

namespace FixEngine

/-- No group of a nest takes the tag. -/
def Nest.Refuses (nest : Nest) (tag : Tag) : Prop := ∀ level ∈ nest, level.accepts tag = false

instance (nest : Nest) (tag : Tag) : Decidable (nest.Refuses tag) :=
  inferInstanceAs (Decidable (∀ level ∈ nest, level.accepts tag = false))

/-- The tag belongs to the body. -/
structure Tag.IsBody (tag : Tag) : Prop where
  ne_zero : tag ≠ 0
  isHeader : tag.isHeader = false
  isTrailer : tag.isTrailer = false

/-- The value is read back from its written form. -/
def Field.ReadsBack (d : Dictionary) (f : Field) : Prop :=
  d.read f.tag f.value.toBytes = .ok f.value

/-- A tag is that of a plain field at the top of a body, or inside the instances
of a layout after the delimiter. -/
def Dictionary.HoldsField (d : Dictionary) (tag : Tag) : Option Layout → Prop
  | none => d.layout? tag = none
  | some layout => tag ≠ layout.delimiter ∧ layout.isMember tag = true

namespace Entry

mutual

/-- The groups that are still open after an entry. -/
def left (d : Dictionary) (scope : Option Layout) : Entry → Nest
  | field _ => []
  | group countTag instances =>
    match d.group? countTag scope with
    | some layout =>
      leftByInstances d layout [] instances ++ [⟨layout, instances.length, instances.length⟩]
    | none => []

/-- The groups that are still open after entries, given those before them. -/
def leftByList (d : Dictionary) (scope : Option Layout) (before : Nest) : List Entry → Nest
  | [] => before
  | entry :: rest => leftByList d scope (entry.left d scope) rest

/-- The groups inside the last instance that are still open after instances. -/
def leftByInstances (d : Dictionary) (layout : Layout) (before : Nest) :
    List (List Entry) → Nest
  | [] => before
  | entries :: rest => leftByInstances d layout (leftByList d (some layout) [] entries) rest

end

mutual

/-- An entry has a place where it stands, and so has everything in it. -/
def InForm (d : Dictionary) (scope : Option Layout) : Entry → Prop
  | field f => f.tag.IsBody ∧ d.HoldsField f.tag scope ∧ f.ReadsBack d
  | group countTag instances =>
    countTag.IsBody ∧ ∃ layout, d.group? countTag scope = some layout ∧
      layout.countTag = countTag ∧ InstancesInForm d layout [] instances

/-- Each entry has a place and ends the groups that the one before it left
open. -/
def ListInForm (d : Dictionary) (scope : Option Layout) (before : Nest) : List Entry → Prop
  | [] => True
  | entry :: rest =>
    before.Refuses entry.tag ∧ entry.InForm d scope ∧
      ListInForm d scope (entry.left d scope) rest

/-- An instance starts with its delimiter, and what follows has a place in it. -/
def InstanceInForm (d : Dictionary) (layout : Layout) : List Entry → Prop
  | field f :: rest =>
    f.tag = layout.delimiter ∧ f.tag.IsBody ∧ f.ReadsBack d ∧
      ListInForm d (some layout) [] rest
  | _ => False

/-- Each instance is in form and ends the groups that the one before it left
open. -/
def InstancesInForm (d : Dictionary) (layout : Layout) (before : Nest) :
    List (List Entry) → Prop
  | [] => True
  | entries :: rest =>
    before.Refuses layout.delimiter ∧ InstanceInForm d layout entries ∧
      InstancesInForm d layout (leftByList d (some layout) [] entries) rest

end

variable {d : Dictionary}

mutual

/-- All fields of an entry in form have tags of the body. -/
theorem isBody_fields : ∀ (entry : Entry) {scope : Option Layout}, entry.InForm d scope →
    ∀ f ∈ entry.fields, f.tag.IsBody
  | .field f, scope, hform => by
    rw [InForm] at hform
    intro f' hf'
    rw [fields, List.mem_singleton] at hf'
    rw [hf']
    exact hform.1
  | .group countTag instances, scope, hform => by
    rw [InForm] at hform
    obtain ⟨htag, layout, -, -, hinstances⟩ := hform
    rw [fields, List.forall_mem_cons]
    exact ⟨htag, isBody_fieldsOfInstances instances hinstances⟩

theorem isBody_fieldsOf : ∀ (entries : List Entry) {scope : Option Layout} {before : Nest},
    ListInForm d scope before entries → ∀ f ∈ fieldsOf entries, f.tag.IsBody
  | [], _, _, _ => by simp [fieldsOf]
  | entry :: rest, scope, before, hform => by
    rw [ListInForm] at hform
    rw [fieldsOf, List.forall_mem_append]
    exact ⟨isBody_fields entry hform.2.1, isBody_fieldsOf rest hform.2.2⟩

theorem isBody_fieldsOfInstances : ∀ (instances : List (List Entry)) {layout : Layout}
    {before : Nest}, InstancesInForm d layout before instances →
    ∀ f ∈ fieldsOfInstances instances, f.tag.IsBody
  | [], _, _, _ => by simp [fieldsOfInstances]
  | (.field f :: others) :: rest, layout, before, hform => by
    rw [InstancesInForm, InstanceInForm] at hform
    obtain ⟨-, ⟨-, htag, -, hothers⟩, hrest⟩ := hform
    rw [fieldsOfInstances, fieldsOf, fields, List.forall_mem_append, List.forall_mem_append,
      List.forall_mem_singleton]
    exact ⟨⟨htag, isBody_fieldsOf others hothers⟩, isBody_fieldsOfInstances rest hrest⟩
  | [] :: _, _, _, hform => by
    rw [InstancesInForm] at hform
    exact absurd hform.2.1 (by simp [InstanceInForm])
  | (.group _ _ :: _) :: _, _, _, hform => by
    rw [InstancesInForm] at hform
    exact absurd hform.2.1 (by simp [InstanceInForm])

end

end Entry

/-- A message is one that a dictionary can tell from its written form.  The
content has to be short enough for its length to be read. -/
structure Message.InForm (m : Message) (d : Dictionary) : Prop where
  msgType : ∀ t, m.header.msgType = some t → MsgType.ofText t.text = t
  sendingTimeType : d.typeOf Tag.sendingTime = .utcTimestamp
  sendingTime : ∀ t, m.header.sendingTime = some t → Timestamp.parse? t.toBytes = some t
  headerFields : ∀ f ∈ m.header.fields, f.tag.isHeader = true ∧ f.ReadsBack d
  body : Entry.ListInForm d none [] m.body
  trailerFields : ∀ f ∈ m.trailer.fields,
    (f.tag = Tag.signature ∨ f.tag = Tag.signatureLength) ∧ f.ReadsBack d
  short : (Record.render m.records).length < 4294967296

end FixEngine
