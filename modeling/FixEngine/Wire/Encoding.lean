import FixEngine.Wire.Record
import FixEngine.Wire.Slot

/-!
# Writing messages

A message is written as its version, the length of what follows, its records
and the checksum of all that.  A message is refused when a field that the
format needs is missing, when a text is empty or holds the delimiter, and when
a tag appears outside the place it has.
-/

namespace FixEngine

namespace Record

def ofText (tag : Tag) (text : String) : Record := ⟨tag, Utf8.encode text⟩

def ofNat (tag : Tag) (n : Nat) : Record := ⟨tag, Numeral.ofNat n⟩

/-- The wire form of records in order. -/
def render (records : List Record) : Bytes :=
  records.flatMap toBytes

end Record

/-- A text may stand on the wire. -/
def checkText (tag : Tag) (text : String) : Except EncodingFault Unit :=
  if text.isEmpty then .error (.invalidValue tag .empty)
  else if Ascii.soh ∈ Utf8.encode text then .error (.invalidValue tag .containsDelimiter)
  else .ok ()

/-- A text is there and may stand on the wire. -/
def requireText (tag : Tag) (text : String) : Except EncodingFault Unit :=
  if text.isEmpty then .error (.missingField tag) else checkText tag text

namespace Tag

/-- The tags around the records of a message. -/
def isFraming (tag : Tag) : Bool :=
  [beginString, bodyLength, checkSum].contains tag

/-- A tag may stand among the fields of a message. -/
def checkFree (tag : Tag) : Except EncodingFault Unit :=
  if tag.isFraming then .error (.invalidValue tag .framingTag)
  else if (Slot.ofTag? tag).isSome then .error (.invalidValue tag .slotTag)
  else .ok ()

end Tag

/-- A field may stand among the fields of a message. -/
def Field.check (f : Field) : Except EncodingFault Unit := do
  f.tag.checkFree
  match f.value with
  | .text value => checkText f.tag value
  | .char value => checkText f.tag (String.ofList [value])
  | _ => return ()

namespace Header

/-- The optional parts of the parties, with their tags. -/
def partyDetails (h : Header) : List (Tag × Option String) :=
  [(Tag.senderSubId, h.senderSubId), (Tag.targetSubId, h.targetSubId),
    (Tag.senderLocationId, h.senderLocationId), (Tag.targetLocationId, h.targetLocationId)]

/-- The records of the slots, in the order of writing. -/
def slotRecords (h : Header) : List Record :=
  (h.msgType.map fun t => Record.ofText Tag.msgType t.text).toList
    ++ [Record.ofText Tag.senderCompId h.senderCompId,
        Record.ofText Tag.targetCompId h.targetCompId]
    ++ (h.msgSeqNum.map fun n => Record.ofNat Tag.msgSeqNum n.toNat).toList
    ++ h.partyDetails.filterMap (fun (tag, text) => text.map (Record.ofText tag))
    ++ (h.sendingTime.map fun t => Record.mk Tag.sendingTime t.toBytes).toList

/-- The slots may stand on the wire. -/
def check (h : Header) : Except EncodingFault Unit := do
  match h.msgType with
  | none => throw (.missingField Tag.msgType)
  | some msgType =>
    requireText Tag.beginString h.beginString
    requireText Tag.msgType msgType.text
    requireText Tag.senderCompId h.senderCompId
    requireText Tag.targetCompId h.targetCompId
    h.partyDetails.forM fun (tag, text) => text.forM (checkText tag)

end Header

namespace Message

/-- The fields of a message outside the slots, in the order of writing. -/
def freeFields (m : Message) : List Field :=
  m.header.fields ++ Entry.fieldsOf m.body ++ m.trailer.fields

/-- The records between the body length and the checksum. -/
def records (m : Message) : List Record :=
  m.header.slotRecords ++ m.freeFields.map Field.record

/-- The message may stand on the wire; of several faults the first in the order
of writing is reported. -/
def check (m : Message) : Except EncodingFault Unit := do
  m.header.check
  m.freeFields.forM Field.check

/-- The wire form without its checksum. -/
def renderUnsummed (m : Message) : Bytes :=
  let content := Record.render m.records
  (Record.ofText Tag.beginString m.header.beginString).toBytes
    ++ (Record.ofNat Tag.bodyLength content.length).toBytes ++ content

/-- The wire form. -/
def render (m : Message) : Bytes :=
  let content := m.renderUnsummed
  content ++ (Record.mk Tag.checkSum (Checksum.render (Checksum.ofBytes content))).toBytes

/-- The wire form of a message that may stand on the wire. -/
def encode (m : Message) : Except EncodingFault Bytes := do
  m.check
  return m.render

end Message

end FixEngine
