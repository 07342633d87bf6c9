import FixEngine.Session.Counters
import FixEngine.Session.Settings

/-!
# Sessions

A session is an identity with a version and two counters.  It stamps the
messages that go out with all of them and the time.
-/

namespace FixEngine

structure Session where
  id : SessionId
  beginString : String
  counters : Counters
  deriving DecidableEq, Repr

namespace Session

def start (id : SessionId) (beginString : String) (outgoing incoming : UInt32) : Session :=
  ⟨id, beginString, ⟨outgoing, incoming⟩⟩

/-- Stamps a message with the session's header and takes the next number. -/
def stamp (s : Session) (now : Timestamp) (m : Message) : Session × Message :=
  let (number, counters) := s.counters.allocate
  let header :=
    { m.header with
      beginString := s.beginString
      senderCompId := s.id.senderCompId
      targetCompId := s.id.targetCompId
      senderSubId := s.id.senderSubId
      targetSubId := s.id.targetSubId
      senderLocationId := s.id.senderLocationId
      targetLocationId := s.id.targetLocationId
      msgSeqNum := some number
      sendingTime := some now }
  ({ s with counters }, { m with header })

/-- Counts a received number if it is the expected one. -/
def receive (s : Session) (received : UInt32) : Arrival × Session :=
  let (arrival, counters) := s.counters.receive received
  (arrival, { s with counters })

/-- Moves the expectation forward to a number, never back. -/
def advance (s : Session) (number : UInt32) : Session :=
  { s with counters := s.counters.advance number }

end Session

/-- A clock that always shows the same moment, given in milliseconds; a moment
that the calendar does not have is replaced by the epoch. -/
def Timestamp.ofClockMillis (millis : Int) : Timestamp :=
  (Timestamp.ofEpochMillis? millis).getD Timestamp.epoch

end FixEngine
