import FixEngine.Wire.Groups
import FixEngine.Wire.Record
import FixEngine.Wire.Slot

/-!
# Assembly of messages

Messages are assembled from records that arrive one at a time.  A message runs
from a record with tag 8 to the next one with tag 10.  A fault drops the message
in progress, and the rest of its records are skipped in silence.
-/

namespace FixEngine

/-- A message that is still arriving. -/
structure MessageDraft where
  header : Header
  body : BodyDraft
  trailerFields : List Field
  /-- The sum of the bytes so far. -/
  sum : UInt8

namespace MessageDraft

/-- A message of which only the first record has arrived. -/
def start (beginString : String) (raw : Bytes) : MessageDraft :=
  { header := { beginString }, body := {}, trailerFields := [], sum := Record.addTo 0 raw }

/-- Adds a record to its part of the message.  A trailer record closes the
groups of the body, a header record does not. -/
def addRecord (draft : MessageDraft) (d : Dictionary) (r : Record) :
    Except DecodingFault MessageDraft := do
  match Slot.ofTag? r.tag with
  | some slot =>
    match draft.header.fill d slot r.value with
    | .ok header => return { draft with header }
    | .error fault => throw (.invalidValue r.tag fault)
  | none =>
    if r.tag.isHeader then
      let f ← BodyDraft.readField d r
      return { draft with header.fields := draft.header.fields ++ [f] }
    else if r.tag.isTrailer then
      let entries ← draft.body.close
      let f ← BodyDraft.readField d r
      return { draft with body := { entries }, trailerFields := draft.trailerFields ++ [f] }
    else
      return { draft with body := ← draft.body.place d r }

def add (draft : MessageDraft) (d : Dictionary) (raw : Bytes) (r : Record) :
    Except DecodingFault MessageDraft :=
  { draft with sum := Record.addTo draft.sum raw }.addRecord d r

/-- The complete message, if its groups are complete and its checksum is the
one declared. -/
def finish (draft : MessageDraft) (declared : Bytes) : Except DecodingFault Message := do
  let body ← draft.body.close
  match Checksum.parse? declared with
  | none => throw (.invalidValue Tag.checkSum .notChecksum)
  | some checkSum =>
    if checkSum = draft.sum then
      return ⟨draft.header, body, ⟨some checkSum, draft.trailerFields⟩⟩
    else throw (.checksumMismatch checkSum draft.sum)

end MessageDraft

/-- Where assembly stands between two records. -/
inductive Assembler where
  /-- Between messages. -/
  | idle
  /-- In the rest of a message that was dropped. -/
  | skipping
  | assembling (draft : MessageDraft)

/-- What assembly hands over: a message, or the fault that dropped one. -/
abbrev Delivery := Except DecodingFault Message

namespace Assembler

/-- No message is in progress. -/
def isIdle : Assembler → Bool
  | assembling _ => false
  | _ => true

/-- Takes up the next record, with or without the delimiter after it. -/
def step (state : Assembler) (d : Dictionary) (raw : Bytes) : Assembler × Option Delivery :=
  match Record.parse raw with
  | .error fault =>
    match state with
    | idle => (idle, some (.error fault))
    | skipping => (skipping, none)
    | assembling _ => (skipping, some (.error fault))
  | .ok r =>
    if r.tag = Tag.beginString then
      match Value.readText r.value with
      | .error fault => (skipping, some (.error (.invalidValue r.tag fault)))
      | .ok beginString =>
        (assembling (.start beginString raw),
          if state.isIdle then none else some (.error .unexpectedBeginString))
    else
      match state with
      | idle => (idle, some (.error (.missingBeginString r.tag)))
      | skipping => (if r.tag = Tag.checkSum then idle else skipping, none)
      | assembling draft =>
        if r.tag = Tag.checkSum then (idle, some (draft.finish r.value))
        else
          match draft.add d raw r with
          | .ok draft => (assembling draft, none)
          | .error fault => (skipping, some (.error fault))

/-- Takes up records one after another and hands over what they complete. -/
def run (d : Dictionary) : Assembler → List Bytes → Assembler × List Delivery
  | state, [] => (state, [])
  | state, raw :: rest =>
    let (next, delivery) := state.step d raw
    let (last, deliveries) := run d next rest
    (last, delivery.toList ++ deliveries)

/-- Takes up all records of a byte string. -/
def runBytes (d : Dictionary) (state : Assembler) (bytes : Bytes) : Assembler × List Delivery :=
  run d state (Record.cut bytes)

end Assembler

/-- The messages and faults of a byte string on its own. -/
def Message.decodeAll (d : Dictionary) (bytes : Bytes) : List Delivery :=
  (Assembler.runBytes d .idle bytes).2

end FixEngine
