/-!
# Business rejects

An application refuses a message with a reason, and may add a text and the
business identifier of the message.
-/

namespace FixEngine

/-- Why an application refuses a message. -/
inductive RejectReason where
  | other
  | unknownId
  | unknownSecurity
  | unsupportedMessageType
  | applicationNotAvailable
  | conditionallyRequiredFieldMissing
  | notAuthorized
  | deliverToFirmNotAvailable
  | invalidPriceIncrement
  deriving DecidableEq, Repr

namespace RejectReason

/-- The number of a reason on the wire. -/
def code : RejectReason → Int64
  | other => 0
  | unknownId => 1
  | unknownSecurity => 2
  | unsupportedMessageType => 3
  | applicationNotAvailable => 4
  | conditionallyRequiredFieldMissing => 5
  | notAuthorized => 6
  | deliverToFirmNotAvailable => 7
  | invalidPriceIncrement => 18

def all : List RejectReason :=
  [other, unknownId, unknownSecurity, unsupportedMessageType, applicationNotAvailable,
    conditionallyRequiredFieldMissing, notAuthorized, deliverToFirmNotAvailable,
    invalidPriceIncrement]

/-- The reason with a number; unknown numbers stand for other reasons. -/
def ofCode (code : Int64) : RejectReason :=
  (all.find? (·.code = code)).getD other

def name : RejectReason → String
  | other => "Other"
  | unknownId => "UnknownId"
  | unknownSecurity => "UnknownSecurity"
  | unsupportedMessageType => "UnsupportedMessageType"
  | applicationNotAvailable => "ApplicationNotAvailable"
  | conditionallyRequiredFieldMissing => "ConditionallyRequiredFieldMissing"
  | notAuthorized => "NotAuthorized"
  | deliverToFirmNotAvailable => "DeliverToFirmNotAvailable"
  | invalidPriceIncrement => "InvalidPriceIncrement"

def ofName? (text : String) : Option RejectReason := all.find? (·.name = text)

@[simp]
theorem ofCode_code (reason : RejectReason) : ofCode reason.code = reason := by
  cases reason <;> decide

end RejectReason

/-- The refusal of a message. -/
structure BusinessReject where
  reason : RejectReason
  text : Option String := none
  /-- The business identifier of the refused message. -/
  refId : Option String := none
  deriving DecidableEq, Repr

namespace BusinessReject

def message (r : BusinessReject) : String :=
  s!"business reject ({r.reason.name})" ++ (r.text.map (": " ++ ·)).getD ""

end BusinessReject

end FixEngine
