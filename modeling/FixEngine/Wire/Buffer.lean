import FixEngine.Wire.Encoding

/-!
# Writing into a buffer

A message is written at the end of what a buffer holds.  Its fields are checked and
written one after another, groups by walking through their instances, into bytes of
their own.  The buffer is touched when nothing can fail any more.
-/

namespace FixEngine

namespace Entry

mutual

/-- An entry may stand among the fields of a message. -/
def check : Entry → Except EncodingFault Unit
  | field f => f.check
  | group countTag instances => do
    countTag.checkFree
    checkInstances instances

def checkAll : List Entry → Except EncodingFault Unit
  | [] => .ok ()
  | entry :: rest => do
    entry.check
    checkAll rest

def checkInstances : List (List Entry) → Except EncodingFault Unit
  | [] => .ok ()
  | entries :: rest => do
    checkAll entries
    checkInstances rest

end

mutual

/-- Writes an entry at the end of a buffer. -/
def write (buffer : Bytes) : Entry → Bytes
  | field f => buffer ++ f.record.toBytes
  | group countTag instances =>
    writeInstances (buffer ++ (countField countTag instances.length).record.toBytes) instances

def writeAll (buffer : Bytes) : List Entry → Bytes
  | [] => buffer
  | entry :: rest => writeAll (write buffer entry) rest

def writeInstances (buffer : Bytes) : List (List Entry) → Bytes
  | [] => buffer
  | entries :: rest => writeInstances (writeAll buffer entries) rest

end

/-- Writes an entry that may stand in a message. -/
def append (buffer : Bytes) (entry : Entry) : Except EncodingFault Bytes := do
  entry.check
  return entry.write buffer

end Entry

/-- Writes a field that may stand in a message. -/
def Field.append (buffer : Bytes) (f : Field) : Except EncodingFault Bytes := do
  f.check
  return buffer ++ f.record.toBytes

namespace Message

/-- What stands between the body length and the checksum. -/
def content (m : Message) : Except EncodingFault Bytes := do
  m.header.check
  let buffer ← m.header.fields.foldlM Field.append (Record.render m.header.slotRecords)
  let buffer ← m.body.foldlM Entry.append buffer
  m.trailer.fields.foldlM Field.append buffer

/-- Writes a message at the end of a buffer. -/
def encodeInto (m : Message) (buffer : Bytes) : Bytes × Except EncodingFault Unit :=
  match m.content with
  | .error fault => (buffer, .error fault)
  | .ok content =>
    let start := buffer.length
    let buffer := buffer ++ (Record.ofText Tag.beginString m.header.beginString).toBytes
    let buffer := buffer ++ (Record.ofNat Tag.bodyLength content.length).toBytes ++ content
    let sum := Checksum.ofBytes (buffer.drop start)
    (buffer ++ (Record.mk Tag.checkSum (Checksum.render sum)).toBytes, .ok ())

end Message

end FixEngine
