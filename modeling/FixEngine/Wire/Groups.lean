import FixEngine.Dictionary.Basic
import FixEngine.Message.Entry
import FixEngine.Wire.Fault

/-!
# Groups being filled

The body of a message on the wire is flat.  Its groups are recovered from the
layouts of a dictionary while the records arrive: a count opens a group, a
delimiter begins an instance, and the first record that does not belong to an
open group closes it.  The open groups form a stack, the innermost first.
-/

namespace FixEngine

/-- A group whose instances are still arriving. -/
structure OpenGroup where
  layout : Layout
  /-- The number of instances that the count announced. -/
  declared : Nat
  /-- The instances before the current one. -/
  finished : List (List Entry)
  /-- The instance being filled. -/
  current : Option (List Entry)

namespace OpenGroup

/-- A group of which only the count has arrived. -/
def start (layout : Layout) (declared : Nat) : OpenGroup :=
  ⟨layout, declared, [], none⟩

/-- All instances, the current one last. -/
def instances (g : OpenGroup) : List (List Entry) :=
  g.finished ++ g.current.toList

/-- Begins an instance with its delimiter. -/
def begin (g : OpenGroup) (f : Field) : OpenGroup :=
  { g with finished := g.instances, current := some [.field f] }

def add (g : OpenGroup) (entry : Entry) : OpenGroup :=
  { g with current := some (g.current.getD [] ++ [entry]) }

/-- Adds the group that was just closed inside the current instance. -/
def settle (g : OpenGroup) : Option Entry → OpenGroup
  | some child => g.add child
  | none => g

/-- The finished group, if it has as many instances as were announced. -/
def close (g : OpenGroup) : Except DecodingFault Entry :=
  let found := g.instances.length
  if found = g.declared then .ok (.group g.layout.countTag g.instances)
  else .error (.groupCountMismatch g.layout.countTag g.declared found)

end OpenGroup

/-- A body that is still arriving: its open groups and the entries before
them. -/
structure BodyDraft where
  /-- The open groups, the innermost first. -/
  groups : List OpenGroup := []
  entries : List Entry := []

namespace BodyDraft

/-- Reads the value of a record by the dictionary. -/
def readField (d : Dictionary) (r : Record) : Except DecodingFault Field :=
  match d.read r.tag r.value with
  | .ok value => .ok ⟨r.tag, value⟩
  | .error fault => .error (.invalidValue r.tag fault)

/-- Opens a group with its count. -/
def openGroup (layout : Layout) (r : Record) : Except DecodingFault OpenGroup :=
  match Value.readCount r.value with
  | .ok declared => .ok (.start layout declared)
  | .error fault => .error (.invalidValue layout.countTag fault)

/-- Where a record goes in an open group. -/
inductive Place where
  /-- It begins an instance. -/
  | delimiter
  /-- It is a field of the current instance. -/
  | member
  /-- It opens a group inside the current instance. -/
  | count (layout : Layout)
  /-- It does not belong to the group. -/
  | outside

/-- The place of a tag in an open group.  Before the first delimiter nothing
but a delimiter belongs to the group. -/
def placeIn (g : OpenGroup) (tag : Tag) : Place :=
  if tag = g.layout.delimiter then .delimiter
  else if g.current.isNone then .outside
  else if g.layout.isMember tag then .member
  else
    match g.layout.nested? tag with
    | some layout => .count layout
    | none => .outside

/-- Places a record, given the group that was just closed inside the innermost
one.  A group that the record does not belong to is closed, and the record
tried in the group around it, or at last at the top of the body. -/
def placeRecord (d : Dictionary) (entries : List Entry) (r : Record) :
    Option Entry → List OpenGroup → Except DecodingFault BodyDraft
  | child, [] => do
    let entries := entries ++ child.toList
    match d.layout? r.tag with
    | some layout => return ⟨[← openGroup layout r], entries⟩
    | none => return ⟨[], entries ++ [.field (← readField d r)]⟩
  | child, g :: outer => do
    let g := g.settle child
    match placeIn g r.tag with
    | .delimiter => return ⟨g.begin (← readField d r) :: outer, entries⟩
    | .member => return ⟨g.add (.field (← readField d r)) :: outer, entries⟩
    | .count layout => return ⟨(← openGroup layout r) :: g :: outer, entries⟩
    | .outside => placeRecord d entries r (some (← g.close)) outer

def place (draft : BodyDraft) (d : Dictionary) (r : Record) : Except DecodingFault BodyDraft :=
  placeRecord d draft.entries r none draft.groups

/-- Closes every group, given the one that was just closed. -/
def closeGroups (entries : List Entry) :
    Option Entry → List OpenGroup → Except DecodingFault (List Entry)
  | child, [] => .ok (entries ++ child.toList)
  | child, g :: outer => do closeGroups entries (some (← (g.settle child).close)) outer

/-- The body with every group closed. -/
def close (draft : BodyDraft) : Except DecodingFault (List Entry) :=
  closeGroups draft.entries none draft.groups

end BodyDraft

end FixEngine
