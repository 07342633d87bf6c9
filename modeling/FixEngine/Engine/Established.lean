import FixEngine.Engine.Handler

/-!
# Traffic of an established session

Both sides treat the messages of an established session alike.  A message is
first checked against the sequence, then it is answered or handed to the
application.
-/

namespace FixEngine.Turn

/-- Moves the expectation to the number that a sequence reset gives. -/
def resetSequence (t : Turn) (m : Message) : Turn :=
  match m.integer? Tag.newSeqNo with
  | some n =>
    if 0 ≤ n.toInt ∧ n.toInt < 4294967296 then
      { t with handler.session := t.handler.session.map (·.advance (UInt32.ofNat n.toInt.toNat)) }
    else t
  | none => t

/-- Acts on a number that is not the expected one.  A strict handler refuses a
number below it and asks once for the numbers missing before one above it;
another handler goes on as if the number were the expected one. -/
def checkArrival (t : Turn) (now : Timestamp) : Arrival → Turn × Bool
  | .inOrder => (t, true)
  | .tooLow expected received =>
    if t.handler.strict then (t.refuse now (.sequenceTooLow expected received), false)
    else (t, true)
  | .gap expected received =>
    if t.handler.strict then
      if t.handler.resendUntil.isNone then
        ({ t with handler.resendUntil := some received }.send now
          (Admin.resendRequest expected received), false)
      else (t, false)
    else (t, true)

/-- Checks a message against the sequence, and says whether it is to be
processed.  A possible duplicate below the expectation leaves the counter
alone. -/
def checkSequence (t : Turn) (now : Timestamp) (session : Session) (m : Message) : Turn × Bool :=
  match m.header.msgSeqNum with
  | none => (t, !t.handler.strict)
  | some received =>
    if m.possDup && received < session.counters.nextIncoming then (t, true)
    else
      match session.receive received with
      | (.inOrder, session) =>
        let complete := t.handler.resendUntil.any (· ≤ received)
        ({ t with
            handler.session := some session
            handler.resendUntil := if complete then none else t.handler.resendUntil }, true)
      | (arrival, _) => t.checkArrival now arrival

/-- Hands a message to the application and sends what it answers. -/
def dispatch (t : Turn) (services : Services) (id : SessionId) (msgType : MsgType) (m : Message) :
    Turn :=
  let told := t.tell (.received id m)
  match services.application.answer t.shared.events id m with
  | .ok replies => replies.foldl (fun t reply => t.send services.now reply) told
  | .error reject =>
    told.send services.now
      (Admin.businessMessageReject m.header.msgSeqNum msgType.text reject)

/-- Processes a message that passed the check of its number. -/
def process (t : Turn) (services : Services) (id : SessionId) (msgType : MsgType) (m : Message) :
    Turn :=
  match msgType with
  | .heartbeat => t
  | .testRequest => t.send services.now (Admin.heartbeat (m.text? Tag.testReqId))
  | .logout =>
    let answered := if t.handler.logoutSent then t else t.sendLogout services.now none
    answered.close .logout
  | .sequenceReset => t.resetSequence m
  | _ => t.dispatch services id msgType m

/-- A sequence reset that only fills a gap has a number of its own in the
sequence; any other moves the expectation whatever its own number. -/
def isPlainReset (msgType : MsgType) (m : Message) : Bool :=
  msgType = .sequenceReset && !(m.flag? Tag.gapFillFlag).getD false

/-- Takes up a message of an established session. -/
def traffic (t : Turn) (services : Services) (m : Message) : Turn :=
  match t.handler.session, m.msgType? with
  | some session, some msgType =>
    if msgType = .logon then t.refuse services.now .duplicateLogon
    else if isPlainReset msgType m then t.resetSequence m
    else
      match t.checkSequence services.now session m with
      | (t, true) => t.process services session.id msgType m
      | (t, false) => t
  | _, _ => t

end FixEngine.Turn
