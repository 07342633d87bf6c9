import FixEngine.Dictionary.Basic
import FixEngine.Document.Basic
import FixEngine.Engine.Reject
import FixEngine.Message.MsgType
import FixEngine.Number.Decimal
import FixEngine.Session.Settings
import FixEngine.Calendar.Precision

/-!
# Forms of values in documents

How the values of the engine are written as documents and read from them.  A
structure is an object with the names of its parts and may also be read from
the list of its parts; a choice is its name.
-/

namespace FixEngine

namespace Decimal

def partNames : List String := ["scaled_value", "scale"]

def toDocument (d : Decimal) : Document :=
  .object [("scaled_value", .integer d.scaled.toInt), ("scale", .integer d.scale.toNat)]

def ofDocument? (d : Document) : Option Decimal := do
  let [scaled, scale] ← d.parts? partNames | none
  let range := Document.integer? Int64.minValue.toInt Int64.maxValue.toInt
  let scaled ← Document.required? range scaled
  let scale ← Document.required? (Document.natural? 8) scale
  return ⟨Int64.ofInt scaled, UInt8.ofNat scale⟩

end Decimal

namespace Precision

def name : Precision → String
  | seconds => "Seconds"
  | millis => "Millis"
  | micros => "Micros"
  | nanos => "Nanos"

def ofName? (text : String) : Option Precision :=
  [seconds, millis, micros, nanos].find? (·.name = text)

def ofDocument? : Document → Option Precision := Document.choice? ofName?

def toDocument (p : Precision) : Document := .text p.name

end Precision

namespace MsgType

/-- The types that have names. -/
def named : List MsgType :=
  [heartbeat, testRequest, resendRequest, reject, sequenceReset, logout, logon, executionReport,
    news, newOrderSingle, orderCancelRequest, orderCancelReplaceRequest, marketDataRequest,
    marketDataSnapshot, marketDataRefresh, businessMessageReject]

def name : MsgType → String
  | heartbeat => "Heartbeat"
  | testRequest => "TestRequest"
  | resendRequest => "ResendRequest"
  | reject => "Reject"
  | sequenceReset => "SequenceReset"
  | logout => "Logout"
  | logon => "Logon"
  | executionReport => "ExecutionReport"
  | news => "News"
  | newOrderSingle => "NewOrderSingle"
  | orderCancelRequest => "OrderCancelRequest"
  | orderCancelReplaceRequest => "OrderCancelReplaceRequest"
  | marketDataRequest => "MarketDataRequest"
  | marketDataSnapshot => "MarketDataSnapshotFullRefresh"
  | marketDataRefresh => "MarketDataIncrementalRefresh"
  | businessMessageReject => "BusinessMessageReject"
  | custom _ => "Custom"

/-- The document of a type; a type of its own has its text as content. -/
def toDocument : MsgType → Document
  | custom text => .object [("Custom", .text text)]
  | t => .text t.name

def ofDocument? : Document → Option MsgType
  | .object [("Custom", .text text)] => some (custom text)
  | d => d.choice? fun text => named.find? (·.name = text)

end MsgType

namespace Version

def ofDocument? : Document → Option Version := Document.choice? ofName?

def toDocument (v : Version) : Document := .text v.name

end Version

namespace DataType

def ofDocument? : Document → Option DataType := Document.choice? ofName?

def toDocument (t : DataType) : Document := .text t.name

end DataType

namespace RejectReason

def ofDocument? : Document → Option RejectReason := Document.choice? ofName?

def toDocument (r : RejectReason) : Document := .text r.name

end RejectReason

namespace Tag

def ofDocument? (d : Document) : Option Tag := (d.natural? 32).map UInt32.ofNat

def toDocument (tag : Tag) : Document := .integer tag.toNat

/-- Reads a tag that is the name of a part: its digits without needless zeros. -/
def ofName? (name : String) : Option Tag :=
  let digits := Utf8.encode name
  let number := Numeral.value digits
  if Numeral.allDigits digits && number < 4294967296 && Numeral.ofNat number = digits then
    some (UInt32.ofNat number)
  else none

def name (tag : Tag) : String := toString tag.toNat

end Tag

namespace Document

/-- Reads a table under tags. -/
def table? {α : Type} (read : Document → Option α) : Document → Option (Table Tag α)
  | object parts =>
    parts.foldlM (fun table (name, d) => do
      return table.insert (← Tag.ofName? name) (← read d)) Table.empty
  | _ => none

/-- The document of a table under tags. -/
def ofTable {α : Type} (write : α → Document) (table : Table Tag α) : Document :=
  object (table.entries.map fun (tag, a) => (tag.name, write a))

end Document

namespace Layout

def partNames : List String := ["count_tag", "name", "delimiter_tag", "members", "groups"]

/-- Reads a layout of a document with at most so many levels. -/
def readLevels : Nat → Document → Option Layout
  | 0, _ => none
  | levels + 1, d => do
    let [countTag, name, delimiter, members, nested] ← d.parts? partNames | none
    return {
      countTag := ← Document.required? Tag.ofDocument? countTag
      name := ← Document.required? Document.text? name
      delimiter := ← Document.required? Tag.ofDocument? delimiter
      members := ← Document.required? (Document.list? Tag.ofDocument?) members
      nested := ← Document.required? (Document.list? (readLevels levels)) nested }

def ofDocument? (d : Document) : Option Layout := readLevels d.depth d

mutual

def toDocument : Layout → Document
  | ⟨countTag, name, delimiter, members, nested⟩ =>
    .object
      [("count_tag", countTag.toDocument), ("name", .text name),
        ("delimiter_tag", delimiter.toDocument),
        ("members", .list (members.map Tag.toDocument)),
        ("groups", .list (toDocuments nested))]

def toDocuments : List Layout → List Document
  | [] => []
  | layout :: rest => layout.toDocument :: toDocuments rest

end

end Layout

namespace Dictionary

def partNames : List String := ["version", "overrides", "groups"]

def ofDocument? (d : Document) : Option Dictionary := do
  let [version, types, layouts] ← d.parts? partNames | none
  return {
    version := ← Document.required? Version.ofDocument? version
    types := ← Document.required? (Document.table? DataType.ofDocument?) types
    layouts := ← Document.required? (Document.table? Layout.ofDocument?) layouts }

def toDocument (d : Dictionary) : Document :=
  .object
    [("version", d.version.toDocument),
      ("overrides", Document.ofTable DataType.toDocument d.types),
      ("groups", Document.ofTable Layout.toDocument d.layouts)]

end Dictionary

namespace SessionId

def partNames : List String :=
  ["sender_comp_id", "target_comp_id", "sender_sub_id", "target_sub_id", "sender_location_id",
    "target_location_id"]

/-- Reads an identity from its parts. -/
def ofParts? : List (Option Document) → Option SessionId
  | [sender, target, senderSub, targetSub, senderLocation, targetLocation] => do
    return {
      senderCompId := ← Document.required? Document.text? sender
      targetCompId := ← Document.required? Document.text? target
      senderSubId := ← Document.missing? Document.text? senderSub
      targetSubId := ← Document.missing? Document.text? targetSub
      senderLocationId := ← Document.missing? Document.text? senderLocation
      targetLocationId := ← Document.missing? Document.text? targetLocation }
  | _ => none

def ofDocument? (d : Document) : Option SessionId := do ofParts? (← d.parts? partNames)

/-- The parts of an identity with their names. -/
def toParts (id : SessionId) : List (String × Document) :=
  let optional := Document.ofOption Document.text
  [("sender_comp_id", .text id.senderCompId), ("target_comp_id", .text id.targetCompId),
    ("sender_sub_id", optional id.senderSubId), ("target_sub_id", optional id.targetSubId),
    ("sender_location_id", optional id.senderLocationId),
    ("target_location_id", optional id.targetLocationId)]

def toDocument (id : SessionId) : Document := .object id.toParts

end SessionId

namespace Interval

def nanosPerSecond : Nat := 1000000000

/-- An interval of seconds and any number of nanoseconds; whole seconds among
these are carried. -/
def carry? (seconds nanos : Nat) : Option Interval :=
  let total := seconds + nanos / nanosPerSecond
  if total < UInt64.size then some ⟨UInt64.ofNat total, UInt32.ofNat (nanos % nanosPerSecond)⟩
  else none

def partNames : List String := ["secs", "nanos"]

/-- No part of an object has another name than those of an interval. -/
def onlyParts : Document → Bool
  | .object parts => parts.all fun (name, _) => partNames.contains name
  | _ => true

def ofDocument? (d : Document) : Option Interval := do
  guard (onlyParts d)
  let [seconds, nanos] ← d.parts? partNames | none
  carry? (← Document.required? (Document.natural? 64) seconds)
    (← Document.required? (Document.natural? 32) nanos)

def toDocument (i : Interval) : Document :=
  .object [("secs", .integer i.seconds.toNat), ("nanos", .integer i.nanos.toNat)]

end Interval

namespace Settings

/-- The names of the parts, those of the identity among them. -/
def partNames : List String :=
  "begin_string" :: SessionId.partNames
    ++ ["reset_on_logon", "heartbeat_interval", "strict_sequence_check", "username", "password"]

def ofDocument? (d : Document) : Option Settings := do
  let beginString :: rest ← d.parts? partNames | none
  let [reset, heartbeat, strict, username, password] := rest.drop 6 | none
  return {
    beginString := ← Document.required? Document.text? beginString
    id := ← SessionId.ofParts? (rest.take 6)
    resetOnLogon := ← Document.required? Document.bool? reset
    heartbeat := ← Document.required? Interval.ofDocument? heartbeat
    strict := ← Document.required? Document.bool? strict
    username := ← Document.missing? Document.text? username
    password := ← Document.missing? Document.text? password }

def toDocument (s : Settings) : Document :=
  let optional := Document.ofOption Document.text
  .object <|
    ("begin_string", .text s.beginString) :: s.id.toParts
      ++ [("reset_on_logon", .bool s.resetOnLogon),
          ("heartbeat_interval", s.heartbeat.toDocument),
          ("strict_sequence_check", .bool s.strict), ("username", optional s.username),
          ("password", optional s.password)]

end Settings

end FixEngine
