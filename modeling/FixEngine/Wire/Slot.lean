import FixEngine.Dictionary.Basic
import FixEngine.Message.Basic

/-!
# Slots of the header

Ten of the header tags after the first have slots of their own, which are
filled by reading their values in fixed ways.
-/

namespace FixEngine

/-- A slot of the header. -/
inductive Slot where
  | bodyLength
  | msgType
  | senderCompId
  | targetCompId
  | msgSeqNum
  | senderSubId
  | targetSubId
  | senderLocationId
  | targetLocationId
  | sendingTime
  deriving DecidableEq, Repr

namespace Slot

def all : List Slot :=
  [bodyLength, msgType, senderCompId, targetCompId, msgSeqNum, senderSubId, targetSubId,
    senderLocationId, targetLocationId, sendingTime]

def tag : Slot → Tag
  | bodyLength => Tag.bodyLength
  | msgType => Tag.msgType
  | senderCompId => Tag.senderCompId
  | targetCompId => Tag.targetCompId
  | msgSeqNum => Tag.msgSeqNum
  | senderSubId => Tag.senderSubId
  | targetSubId => Tag.targetSubId
  | senderLocationId => Tag.senderLocationId
  | targetLocationId => Tag.targetLocationId
  | sendingTime => Tag.sendingTime

def ofTag? (tag : Tag) : Option Slot :=
  all.find? (·.tag = tag)

@[simp]
theorem ofTag?_tag (slot : Slot) : ofTag? slot.tag = some slot := by
  cases slot <;> decide

end Slot

namespace Header

/-- Fills a slot.  The sending time is read by the type that the dictionary
gives to its tag and stays out unless it is a timestamp. -/
def fill (h : Header) (d : Dictionary) (slot : Slot) (bytes : Bytes) :
    Except ValueFault Header := do
  match slot with
  | .bodyLength => return { h with bodyLength := some (← Value.readUnsigned bytes) }
  | .msgType => return { h with msgType := some (MsgType.ofText (← Value.readText bytes)) }
  | .senderCompId => return { h with senderCompId := ← Value.readText bytes }
  | .targetCompId => return { h with targetCompId := ← Value.readText bytes }
  | .msgSeqNum => return { h with msgSeqNum := some (← Value.readUnsigned bytes) }
  | .senderSubId => return { h with senderSubId := some (← Value.readText bytes) }
  | .targetSubId => return { h with targetSubId := some (← Value.readText bytes) }
  | .senderLocationId => return { h with senderLocationId := some (← Value.readText bytes) }
  | .targetLocationId => return { h with targetLocationId := some (← Value.readText bytes) }
  | .sendingTime =>
    return { h with sendingTime := (← d.read Tag.sendingTime bytes).timestamp? }

end Header

end FixEngine
