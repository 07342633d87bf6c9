/-!
# Message types

The types of message that the engine knows by name, with their wire texts.
Every other text is a type of its own.
-/

namespace FixEngine

inductive MsgType where
  | heartbeat
  | testRequest
  | resendRequest
  | reject
  | sequenceReset
  | logout
  | logon
  | executionReport
  | news
  | newOrderSingle
  | orderCancelRequest
  | orderCancelReplaceRequest
  | marketDataRequest
  | marketDataSnapshot
  | marketDataRefresh
  | businessMessageReject
  | custom (text : String)
  deriving DecidableEq, Repr

namespace MsgType

def text : MsgType → String
  | heartbeat => "0"
  | testRequest => "1"
  | resendRequest => "2"
  | reject => "3"
  | sequenceReset => "4"
  | logout => "5"
  | logon => "A"
  | executionReport => "8"
  | news => "B"
  | newOrderSingle => "D"
  | orderCancelRequest => "F"
  | orderCancelReplaceRequest => "G"
  | marketDataRequest => "V"
  | marketDataSnapshot => "W"
  | marketDataRefresh => "X"
  | businessMessageReject => "j"
  | custom text => text

def ofText (text : String) : MsgType :=
  match text with
  | "0" => heartbeat
  | "1" => testRequest
  | "2" => resendRequest
  | "3" => reject
  | "4" => sequenceReset
  | "5" => logout
  | "A" => logon
  | "8" => executionReport
  | "B" => news
  | "D" => newOrderSingle
  | "F" => orderCancelRequest
  | "G" => orderCancelReplaceRequest
  | "V" => marketDataRequest
  | "W" => marketDataSnapshot
  | "X" => marketDataRefresh
  | "j" => businessMessageReject
  | other => custom other

/-- The types of the session itself. -/
def isAdministrative : MsgType → Bool
  | heartbeat | testRequest | resendRequest | reject | sequenceReset | logout | logon => true
  | _ => false

@[simp]
theorem text_ofText (text : String) : (ofText text).text = text := by
  unfold ofText
  split <;> rfl

end MsgType

end FixEngine
