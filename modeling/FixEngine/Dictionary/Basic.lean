import FixEngine.Dictionary.Interpretation
import FixEngine.Dictionary.Layout
import FixEngine.Dictionary.Version
import FixEngine.Table

/-!
# Dictionaries

A dictionary gives a type to every tag and a layout to the groups that may
stand at the top of a body.  Types that it does not set come from the
specification.
-/

namespace FixEngine

structure Dictionary where
  version : Version
  /-- The types that differ from the specification. -/
  types : Table Tag DataType
  /-- The layouts of groups, under their count tags. -/
  layouts : Table Tag Layout

namespace Dictionary

/-- The dictionary of a version, without groups. -/
def plain (version : Version) : Dictionary :=
  ⟨version, Table.empty, Table.empty⟩

def withType (d : Dictionary) (tag : Tag) (type : DataType) : Dictionary :=
  { d with types := d.types.insert tag type }

/-- Registers a group under its count tag, in place of an earlier one. -/
def withGroup (d : Dictionary) (layout : Layout) : Dictionary :=
  { d with layouts := d.layouts.insert layout.countTag layout }

/-- The dictionary of a version with the standard groups. -/
def standard (version : Version) : Dictionary :=
  Layout.standard.foldl withGroup (plain version)

/-- The dictionary of version 4.4 with the standard groups. -/
def usual : Dictionary := standard .fix44

def typeOf (d : Dictionary) (tag : Tag) : DataType :=
  (d.types.find? tag).getD (DataType.ofTag tag)

/-- The layout of the group that a tag opens at the top of a body. -/
def layout? (d : Dictionary) (tag : Tag) : Option Layout :=
  d.layouts.find? tag

/-- Reads the value of a tag. -/
def read (d : Dictionary) (tag : Tag) (bytes : Bytes) : Except ValueFault Value :=
  Value.read (d.typeOf tag) bytes

end Dictionary

namespace Tag

def isHeader (tag : Tag) : Bool :=
  [8, 9, 34, 35, 43, 49, 50, 52, 56, 57, 90, 91, 97, 115, 116, 122, 128, 129, 142, 143, 144,
    145, 212, 213, 347, 369, 1128, 1129, 1156].contains tag

def isTrailer (tag : Tag) : Bool :=
  [10, 89, 93].contains tag

end Tag

end FixEngine
