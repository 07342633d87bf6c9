import FixEngine.Message.Tag

/-!
# Layouts of repeating groups

A layout tells which tag counts the instances of a group, which tag begins each
instance, and which fields and groups an instance may hold.
-/

namespace FixEngine

structure Layout where
  countTag : Tag
  name : String
  /-- The tag that begins an instance. -/
  delimiter : Tag
  /-- The tags of an instance, the delimiter among them. -/
  members : List Tag
  /-- The groups inside an instance. -/
  nested : List Layout
  deriving Repr

namespace Layout

/-- A layout with the delimiter as its only member. -/
def ofDelimiter (countTag : Tag) (name : String) (delimiter : Tag) : Layout :=
  ⟨countTag, name, delimiter, [delimiter], []⟩

/-- Adds tags to the members, each of them once. -/
def withMembers (layout : Layout) (tags : List Tag) : Layout :=
  { layout with members := tags.foldl concatNew layout.members }
where
  /-- Appends a tag that is not yet in the list. -/
  concatNew (members : List Tag) (tag : Tag) : List Tag :=
    if tag ∈ members then members else members ++ [tag]

def withGroup (layout group : Layout) : Layout :=
  { layout with nested := layout.nested ++ [group] }

/-- The tag is a field of an instance. -/
def isMember (layout : Layout) (tag : Tag) : Bool :=
  layout.members.contains tag

/-- The group that a tag opens inside an instance. -/
def nested? (layout : Layout) (tag : Tag) : Option Layout :=
  layout.nested.find? (·.countTag = tag)

/-- The layout of a list of parties. -/
def parties (countTag : Tag) (name : String) (id source role : Tag) : Layout :=
  (ofDelimiter countTag name id).withMembers [source, role]

/-- The groups that session messages and common application messages use. -/
def standard : List Layout :=
  [ (ofDelimiter Tag.noMsgTypes "NoMsgTypes" Tag.refMsgType).withMembers
      [Tag.msgDirection, 1130, 1131],
    (ofDelimiter Tag.noRelatedSym "NoRelatedSym" Tag.symbol).withMembers
      [65, 48, 22, 167, 200, 207, 15, Tag.orderQty, Tag.side],
    (ofDelimiter Tag.noMdEntries "NoMDEntries" 269).withMembers
      [270, 271, 272, 273, 278, 279, 280, Tag.symbol, 15, 290, 346],
    (parties Tag.noPartyIds "NoPartyIDs" Tag.partyId Tag.partyIdSource Tag.partyRole).withGroup
      ((ofDelimiter 802 "NoPartySubIDs" 523).withMembers [803]),
    ((ofDelimiter Tag.noAllocs "NoAllocs" 79).withMembers [661, 80]).withGroup
      (parties 539 "NoNestedPartyIDs" 524 525 538) ]

end Layout

end FixEngine
