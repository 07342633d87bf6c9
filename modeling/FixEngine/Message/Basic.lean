import FixEngine.Message.Entry
import FixEngine.Message.MsgType

/-!
# Messages

A message is a header, a body and a trailer.  Eleven header tags have slots of
their own; the other header fields keep their order.
-/

namespace FixEngine

structure Header where
  beginString : String := ""
  /-- The body length as received; it is computed anew for writing. -/
  bodyLength : Option UInt32 := none
  msgType : Option MsgType := none
  senderCompId : String := ""
  targetCompId : String := ""
  senderSubId : Option String := none
  targetSubId : Option String := none
  senderLocationId : Option String := none
  targetLocationId : Option String := none
  msgSeqNum : Option UInt32 := none
  sendingTime : Option Timestamp := none
  /-- The header fields without a slot, in order. -/
  fields : List Field := []
  deriving DecidableEq, Repr

/-- Replaces the first field with the same tag, or adds the field at the end. -/
def Field.setIn (f : Field) : List Field → List Field
  | [] => [f]
  | first :: rest => if first.tag = f.tag then f :: rest else first :: f.setIn rest

namespace Header

/-- The first field without a slot that has the tag. -/
def find? (h : Header) (tag : Tag) : Option Field :=
  h.fields.find? (·.tag = tag)

/-- Sets a field without a slot. -/
def set (h : Header) (f : Field) : Header :=
  { h with fields := f.setIn h.fields }

/-- The header marks the message as a possible duplicate. -/
def possDup (h : Header) : Bool :=
  ((h.find? Tag.possDupFlag).bind (·.value.flag?)).getD false

end Header

structure Trailer where
  /-- The checksum as received; it is computed anew for writing. -/
  checkSum : Option UInt8 := none
  /-- The other trailer fields, in order. -/
  fields : List Field := []
  deriving DecidableEq, Repr

structure Message where
  header : Header := {}
  body : List Entry := []
  trailer : Trailer := {}
  deriving DecidableEq, Repr

namespace Message

/-- A message of a type with a body. -/
def ofType (msgType : MsgType) (body : List Entry) : Message :=
  { header := { msgType := some msgType }, body }

def msgType? (m : Message) : Option MsgType := m.header.msgType

/-- The message has a type of the session itself. -/
def isAdministrative (m : Message) : Bool :=
  m.msgType?.any MsgType.isAdministrative

/-- The first body field with a tag that stands in no group. -/
def find? (m : Message) (tag : Tag) : Option Field :=
  Entry.find? tag m.body

/-- The body has a field or a group with the tag. -/
def contains (m : Message) (tag : Tag) : Bool :=
  m.body.any (·.tag = tag)

/-- The value of the first body field with a tag. -/
def value? (m : Message) (tag : Tag) : Option Value :=
  (m.find? tag).map (·.value)

def text? (m : Message) (tag : Tag) : Option String :=
  (m.value? tag).bind Value.text?

def integer? (m : Message) (tag : Tag) : Option Int64 :=
  (m.value? tag).bind Value.integer?

def flag? (m : Message) (tag : Tag) : Option Bool :=
  (m.value? tag).bind Value.flag?

def char? (m : Message) (tag : Tag) : Option Char :=
  (m.value? tag).bind Value.char?

def decimal? (m : Message) (tag : Tag) : Option Decimal :=
  (m.value? tag).bind Value.decimal?

def timestamp? (m : Message) (tag : Tag) : Option Timestamp :=
  (m.value? tag).bind Value.timestamp?

/-- The instances of the first group with a tag. -/
def group? (m : Message) (tag : Tag) : Option (List (List Entry)) :=
  Entry.findGroup? tag m.body

/-- The header, or else the body, marks the message as a possible duplicate. -/
def possDup (m : Message) : Bool :=
  m.header.possDup || (m.flag? Tag.possDupFlag).getD false

/-- The records of the body in wire order, groups laid out flat. -/
def bodyRecords (m : Message) : List Record :=
  (Entry.fieldsOf m.body).map Field.record

def bodyBytes (m : Message) : Bytes :=
  m.bodyRecords.flatMap Record.toBytes

/-- A form for readers: the type, the parties and the number, then the body
with bars between its fields. -/
def shown (m : Message) : String :=
  let kind := (m.msgType?.map MsgType.text).getD "?"
  let number := (m.header.msgSeqNum.getD 0).toNat
  let intro := s!"{kind}({m.header.senderCompId}->{m.header.targetCompId} #{number})"
  String.join (intro :: (Entry.fieldsOf m.body).map fun f => "|" ++ f.shown)

end Message

end FixEngine
