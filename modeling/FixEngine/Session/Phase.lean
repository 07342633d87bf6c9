/-!
# Phases of a connection

A connection goes through the exchange of logons to the traffic of the session
and ends closed.  The side that accepts waits for a logon; the side that
initiates sends one and waits for the answer.
-/

namespace FixEngine

/-- Why an operation on a session is refused. -/
inductive SessionFault where
  | illegalPhase (expected current : String)
  | notEstablished
  | sequenceTooLow (expected received : UInt32)
  /-- Another connection holds the session. -/
  | duplicate (session : String)
  | configuration (text : String)
  deriving DecidableEq, Repr

namespace SessionFault

def name : SessionFault → String
  | illegalPhase _ _ => "IllegalState"
  | notEstablished => "NotEstablished"
  | sequenceTooLow _ _ => "SequenceTooLow"
  | duplicate _ => "DuplicateSession"
  | configuration _ => "Configuration"

def message : SessionFault → String
  | illegalPhase expected current => s!"illegal state: expected {expected}, current {current}"
  | notEstablished => "session not established"
  | sequenceTooLow expected received =>
    s!"sequence too low: expected {expected.toNat}, received {received.toNat}"
  | duplicate session => s!"session already active: {session}"
  | configuration text => s!"configuration error: {text}"

end SessionFault

/-- Where a connection stands. -/
inductive Phase where
  /-- The initiating side has not yet sent its logon. -/
  | connecting
  /-- The accepting side waits for a logon. -/
  | awaitingLogon
  /-- The initiating side waits for the answer to its logon. -/
  | awaitingLogonAck
  | established
  | closed
  deriving DecidableEq, Repr

namespace Phase

/-- The phase in which a connection begins unless its side says otherwise. -/
def initial : Phase := connecting

def name : Phase → String
  | connecting => "Connecting"
  | awaitingLogon => "AwaitingLogon"
  | awaitingLogonAck => "AwaitingLogonAck"
  | established => "Established"
  | closed => "Closed"

def all : List Phase := [connecting, awaitingLogon, awaitingLogonAck, established, closed]

def ofName? (text : String) : Option Phase := all.find? (·.name = text)

/-- The phase may be followed by another one.  Any phase may close. -/
def mayBecome : Phase → Phase → Bool
  | connecting, awaitingLogonAck => true
  | awaitingLogon, established => true
  | awaitingLogonAck, established => true
  | _, closed => true
  | _, _ => false

/-- Refuses every phase but one. -/
def expect (current expected : Phase) : Except SessionFault Unit :=
  if current = expected then .ok () else .error (.illegalPhase expected.name current.name)

end Phase

end FixEngine
