import FixEngine.Engine.Established

/-!
# Exchange of logons

The side that accepts a connection waits for a logon, decides whether to accept
it and answers with one of its own.  The side that initiates sends its logon
first and waits for the answer.  A logon whose number is ahead of the expected
one is accepted, and the numbers before it are asked for.
-/

namespace FixEngine

namespace Session

/-- Counts the number of a logon, and the numbers before it that are missing. -/
def receiveLogon (s : Session) (received : UInt32) : Arrival × Session :=
  match s.receive received with
  | (.gap expected received, s) =>
    let next := if received = 0xFFFFFFFF then received else received + 1
    (.gap expected received, s.advance next)
  | other => other

end Session

namespace Turn

/-- The seconds between heartbeats for a logon that does not give them. -/
def usualHeartbeat : Int64 := 30

def withSession (t : Turn) (session : Session) : Turn :=
  { t with handler.session := some session }

/-- Takes up the logon of a connection that was accepted. -/
def acceptLogon (t : Turn) (services : Services) (logon : Message) : Turn :=
  if !services.accepts logon then t.close .authenticationFailed
  else
    let id := SessionId.ofInbound logon.header
    match logon.header.msgSeqNum with
    | none => t.close .missingSequenceNumber
    | some received =>
      let reset := (logon.flag? Tag.resetSeqNumFlag).getD false
      let incoming := if reset then 1 else services.numbering.incoming id
      let session := Session.start id logon.header.beginString 1 incoming
      match t.register? session with
      | none =>
        let reason := DisconnectReason.duplicateSession
        let (_, logout) := session.stamp services.now (Admin.logout (some reason.message))
        ({ t with handler.logoutSent := true }.act (.send logout)).close reason
      | some t =>
        let heartbeat := (logon.integer? Tag.heartBtInt).getD usualHeartbeat
        let answer := Admin.logon heartbeat reset
        let (arrival, session) := session.receiveLogon received
        let t := t.withSession session
        match arrival with
        | .inOrder => (t.send services.now answer).establish id
        | .gap expected received =>
          ((t.send services.now answer).send services.now
            (Admin.resendRequest expected (received - 1))).establish id
        | .tooLow expected received =>
          (t.refuse services.now (.sequenceTooLow expected received)).release

/-- Sends the logon of a connection that was initiated. -/
def sendLogon (t : Turn) (services : Services) (settings : Settings) : Turn :=
  let id := settings.id
  let session :=
    if settings.resetOnLogon then Session.start id settings.beginString 1 1
    else
      Session.start id settings.beginString (services.numbering.outgoing id)
        (services.numbering.incoming id)
  match t.register? session with
  | none => t.close .duplicateSession
  | some t =>
    let plain := Admin.logon settings.heartbeatSeconds settings.resetOnLogon
    let credentials :=
      Admin.optionalText Tag.username (settings.username.filter (!·.isEmpty))
        ++ Admin.optionalText Tag.password (settings.password.filter (!·.isEmpty))
    let logon := { plain with body := plain.body ++ credentials }
    let sent := t.send services.now logon
    { sent with handler.phase := .awaitingLogonAck }

/-- Takes up the answer to this side's logon. -/
def takeLogonAnswer (t : Turn) (services : Services) (logon : Message) : Turn :=
  match t.handler.session, logon.header.msgSeqNum with
  | none, _ => t
  | some _, none => t.close .missingSequenceNumber
  | some session, some received =>
    let (arrival, session) := session.receiveLogon received
    let t := t.withSession session
    match arrival with
    | .inOrder => t.establish session.id
    | .gap expected received =>
      (t.establish session.id).send services.now (Admin.resendRequest expected (received - 1))
    | .tooLow expected received => t.refuse services.now (.sequenceTooLow expected received)

end Turn

namespace Handler

/-- The connection is up. -/
def connected (h : Handler) (services : Services) (shared : Shared) : Turn :=
  let t := Turn.start h shared
  match h.role with
  | .acceptor => t
  | .initiator settings => t.sendLogon services settings

/-- A message has arrived. -/
def receive (h : Handler) (services : Services) (shared : Shared) (m : Message) : Turn :=
  let t := Turn.start h shared
  match h.phase, h.role with
  | .established, _ => t.traffic services m
  | .awaitingLogon, .acceptor =>
    if m.msgType? = some .logon then t.acceptLogon services m else t.close .logonExpected
  | .awaitingLogonAck, .initiator _ =>
    match m.msgType? with
    | some .logon => t.takeLogonAnswer services m
    | some .logout => t.close .logout
    | _ => t.close .logonExpected
  | _, _ => t

/-- The connection is gone. -/
def disconnected (h : Handler) (shared : Shared) : Turn :=
  (Turn.start h shared).disconnect

end Handler

end FixEngine
