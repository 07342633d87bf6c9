import FixEngine.Engine.Admin
import FixEngine.Engine.Application
import FixEngine.Session.Basic
import FixEngine.Session.Directory

/-!
# Protocol handlers

A handler runs the protocol of one connection without touching a socket.  It is
told what happens and answers with actions in the order in which they are to be
performed; the messages among them are already stamped.

Handlers of one engine share a directory of live sessions, a directory of the
channels of established sessions and the record of what the application was
told.  A handler works on these in a `Turn`, which also collects its actions.
-/

namespace FixEngine

/-- Why a connection is to be closed. -/
inductive DisconnectReason where
  /-- The logon was not accepted; nothing was sent. -/
  | authenticationFailed
  | logonExpected
  | missingSequenceNumber
  | sequenceTooLow (expected received : UInt32)
  | duplicateSession
  | duplicateLogon
  | logout
  deriving DecidableEq, Repr

namespace DisconnectReason

/-- The reason of a kind; the numbers count only for a number too low. -/
def ofName? (name : String) (expected received : UInt32) : Option DisconnectReason :=
  match name with
  | "AuthenticationFailed" => some authenticationFailed
  | "LogonExpected" => some logonExpected
  | "MissingSequenceNumber" => some missingSequenceNumber
  | "SequenceTooLow" => some (sequenceTooLow expected received)
  | "DuplicateSession" => some duplicateSession
  | "DuplicateLogon" => some duplicateLogon
  | "Logout" => some logout
  | _ => none

/-- The text shown for a reason, which a logout carries to the other side. -/
def message : DisconnectReason → String
  | authenticationFailed => "authentication failed"
  | logonExpected => "first message was not a Logon"
  | missingSequenceNumber => "Logon without MsgSeqNum"
  | sequenceTooLow expected received =>
    s!"MsgSeqNum too low, expecting {expected.toNat} but received {received.toNat}"
  | duplicateSession => "session already active"
  | duplicateLogon => "Logon received while already logged on"
  | logout => "logout"

end DisconnectReason

/-- What a connection is to do. -/
inductive Action where
  /-- Write a stamped message. -/
  | send (message : Message)
  /-- Write out what waits and close. -/
  | disconnect (reason : DisconnectReason)
  deriving DecidableEq, Repr

namespace Action

/-- The message that is to be written. -/
def message? : Action → Option Message
  | send m => some m
  | disconnect _ => none

def isDisconnect : Action → Bool
  | send _ => false
  | disconnect _ => true

end Action

/-- What the handlers of an engine are given. -/
structure Services where
  application : Application
  accepts : Authenticator
  /-- The time shown by the clock. -/
  now : Timestamp
  numbering : Numbering

/-- What the handlers of an engine have in common. -/
structure Shared where
  /-- The live sessions. -/
  sessions : Directory
  /-- The channels of established sessions. -/
  senders : Directory
  /-- What the application was told. -/
  events : List Event

namespace Shared

/-- Before the first connection. -/
def empty : Shared := ⟨Directory.empty, Directory.empty, []⟩

end Shared

/-- The side that a handler takes. -/
inductive Role where
  | acceptor
  | initiator (settings : Settings)
  deriving DecidableEq, Repr

/-- The handler of one connection. -/
structure Handler where
  role : Role
  /-- The number that tells this connection from others. -/
  owner : Owner
  /-- The channel through which the application sends, if there is one. -/
  channel : Option Owner
  /-- Unexpected sequence numbers are acted upon. -/
  strict : Bool
  phase : Phase
  session : Option Session
  /-- The application was told of a logon and not yet of the logout. -/
  loggedOn : Bool
  logoutSent : Bool
  /-- The last number of an outstanding resend request. -/
  resendUntil : Option UInt32
  deriving DecidableEq, Repr

namespace Handler

/-- A handler before its connection is up. -/
def start (role : Role) (phase : Phase) (strict : Bool) (owner : Owner)
    (channel : Option Owner) : Handler :=
  { role, owner, channel, strict, phase, session := none, loggedOn := false,
    logoutSent := false, resendUntil := none }

def acceptor (strict : Bool) (owner : Owner) (channel : Option Owner) : Handler :=
  start .acceptor .awaitingLogon strict owner channel

def initiator (settings : Settings) (owner : Owner) (channel : Option Owner) : Handler :=
  start (.initiator settings) .connecting settings.strict owner channel

def sessionId? (h : Handler) : Option SessionId := h.session.map (·.id)

def settings? (h : Handler) : Option Settings :=
  match h.role with
  | .acceptor => none
  | .initiator settings => some settings

end Handler

/-- What becomes of a message that the application originates. -/
structure Stamping where
  /-- The number under which it is sent, or why it is not. -/
  result : Except SessionFault UInt32
  /-- The handler afterwards. -/
  handler : Handler
  /-- The message, as it is to be sent. -/
  message : Message

/-- Stamps a message that the application originates.  A logout among them
counts as this side's own. -/
def Handler.stamp (h : Handler) (now : Timestamp) (m : Message) : Stamping :=
  match h.session, h.phase with
  | some session, .established =>
    let (number, _) := session.counters.allocate
    let (session, stamped) := session.stamp now m
    let logoutSent := h.logoutSent || m.msgType? = some .logout
    ⟨.ok number, { h with session := some session, logoutSent }, stamped⟩
  | _, _ => ⟨.error .notEstablished, h, m⟩

/-- A handler at work on one event. -/
structure Turn where
  handler : Handler
  shared : Shared
  /-- The actions so far, in order. -/
  actions : List Action

namespace Turn

def start (handler : Handler) (shared : Shared) : Turn := ⟨handler, shared, []⟩

def act (t : Turn) (action : Action) : Turn :=
  { t with actions := t.actions ++ [action] }

def tell (t : Turn) (event : Event) : Turn :=
  { t with shared.events := t.shared.events ++ [event] }

/-- Stamps a message with the handler's session and sends it. -/
def send (t : Turn) (now : Timestamp) (m : Message) : Turn :=
  match t.handler.session with
  | some session =>
    let (session, stamped) := session.stamp now m
    { t with handler.session := some session }.act (.send stamped)
  | none => t

/-- Sends a logout with a reason. -/
def sendLogout (t : Turn) (now : Timestamp) (text : Option String) : Turn :=
  { t with handler.logoutSent := true }.send now (Admin.logout text)

def close (t : Turn) (reason : DisconnectReason) : Turn :=
  { t with handler.phase := .closed }.act (.disconnect reason)

/-- Sends a logout with the reason and closes the connection. -/
def refuse (t : Turn) (now : Timestamp) (reason : DisconnectReason) : Turn :=
  (t.sendLogout now (some reason.message)).close reason

/-- Registers a session for the handler, unless its identity is held already. -/
def register? (t : Turn) (session : Session) : Option Turn :=
  match t.shared.sessions.claim session.id t.handler.owner with
  | (sessions, _, true) =>
    some { t with handler.session := some session, shared.sessions := sessions }
  | (_, _, false) => none

/-- Gives up the handler's session and its channel. -/
def release (t : Turn) : Turn :=
  match t.handler.session with
  | none => t
  | some session =>
    let senders :=
      match t.handler.channel with
      | some channel => t.shared.senders.release session.id channel
      | none => t.shared.senders
    { t with
      handler.session := none
      shared.sessions := t.shared.sessions.release session.id t.handler.owner
      shared.senders := senders }

/-- Enters the traffic of a session: its channel is published and the
application told. -/
def establish (t : Turn) (id : SessionId) : Turn :=
  let senders :=
    match t.handler.channel with
    | some channel => t.shared.senders.insert id channel
    | none => t.shared.senders
  { t with
    handler.phase := .established
    handler.loggedOn := true
    shared.senders := senders }.tell (.loggedOn id)

/-- Ends the connection: the application is told if it was told of the logon,
and the session is given up. -/
def disconnect (t : Turn) : Turn :=
  let told :=
    match t.handler.loggedOn, t.handler.session with
    | true, some session => t.tell (.loggedOut session.id)
    | _, _ => t
  let released := { told with handler.loggedOn := false }.release
  { released with handler.phase := .closed }

end Turn

end FixEngine
