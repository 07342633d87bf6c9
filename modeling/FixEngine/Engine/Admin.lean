import FixEngine.Engine.Reject
import FixEngine.Message.Basic

/-!
# Messages of the session itself

The messages that the engine sends on its own, before they are stamped.
-/

namespace FixEngine.Admin

def textEntry (tag : Tag) (text : String) : Entry := .field ⟨tag, .text text⟩

def integerEntry (tag : Tag) (n : Int64) : Entry := .field ⟨tag, .integer n⟩

def numberEntry (tag : Tag) (n : UInt32) : Entry := integerEntry tag (Int64.ofInt n.toNat)

/-- A body field with text, if there is a text. -/
def optionalText (tag : Tag) (text : Option String) : List Entry :=
  (text.map (textEntry tag)).toList

/-- A logon without encryption. -/
def logon (heartbeat : Int64) (reset : Bool) : Message :=
  Message.ofType .logon <|
    [integerEntry Tag.encryptMethod 0, integerEntry Tag.heartBtInt heartbeat]
      ++ (if reset then [.field ⟨Tag.resetSeqNumFlag, .flag true⟩] else [])

/-- A logout, which may give a reason. -/
def logout (text : Option String) : Message :=
  Message.ofType .logout (optionalText Tag.text text)

/-- A heartbeat, which returns the text of a test request. -/
def heartbeat (testReqId : Option String) : Message :=
  Message.ofType .heartbeat (optionalText Tag.testReqId testReqId)

def testRequest (testReqId : String) : Message :=
  Message.ofType .testRequest [textEntry Tag.testReqId testReqId]

/-- A request for the messages from one number to another. -/
def resendRequest (first last : UInt32) : Message :=
  Message.ofType .resendRequest
    [numberEntry Tag.beginSeqNo first, numberEntry Tag.endSeqNo last]

/-- The refusal of a message with a number and a type. -/
def businessMessageReject (refSeqNum : Option UInt32) (refMsgType : String)
    (reject : BusinessReject) : Message :=
  Message.ofType .businessMessageReject <|
    (refSeqNum.map (numberEntry Tag.refSeqNum)).toList
      ++ [textEntry Tag.refMsgType refMsgType]
      ++ optionalText Tag.businessRejectRefId reject.refId
      ++ [integerEntry Tag.businessRejectReason reject.reason.code]
      ++ optionalText Tag.text reject.text

end FixEngine.Admin
