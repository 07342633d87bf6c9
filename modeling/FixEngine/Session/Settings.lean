import FixEngine.Session.Identity
import FixEngine.Session.Phase

/-!
# Settings of sessions

What a session is configured with, and what must not be left out.
-/

namespace FixEngine

structure Interval where
  seconds : UInt64
  nanos : UInt32
  deriving DecidableEq, Repr

structure Settings where
  beginString : String
  id : SessionId
  /-- Both counters begin at one, and the logon says so. -/
  resetOnLogon : Bool
  /-- The interval announced in the logon. -/
  heartbeat : Interval
  /-- Unexpected sequence numbers are acted upon. -/
  strict : Bool
  username : Option String
  password : Option String
  deriving DecidableEq, Repr

namespace Settings

/-- The version of a session for which none is set. -/
def usualBeginString : String := "FIX.4.4"

/-- The interval of a session for which none is set. -/
def usualHeartbeat : Interval := ⟨30, 0⟩

/-- The settings of a session for which nothing else is set. -/
def ofId (beginString : String) (id : SessionId) : Settings :=
  { beginString, id, resetOnLogon := false, heartbeat := usualHeartbeat, strict := false,
    username := none, password := none }

/-- The interval in whole seconds, as far as a signed number reaches. -/
def heartbeatSeconds (s : Settings) : Int64 :=
  Int64.ofInt (min s.heartbeat.seconds.toNat 0x7FFFFFFFFFFFFFFF)

/-- The texts that must not be empty, with their names. -/
def required (s : Settings) : List (String × String) :=
  [("begin_string", s.beginString), ("sender_comp_id", s.id.senderCompId),
    ("target_comp_id", s.id.targetCompId)]

/-- A setting is missing. -/
def missing (name : String) : SessionFault := .configuration s!"{name} is required"

/-- Refuses settings in which a required text is empty, naming the first. -/
def validate (s : Settings) : Except SessionFault Unit :=
  match s.required.find? (·.2.isEmpty) with
  | some (name, _) => .error (missing name)
  | none => .ok ()

/-- Settings in which anything may be left out. -/
structure Draft where
  beginString : Option String := none
  senderCompId : Option String := none
  targetCompId : Option String := none
  senderSubId : Option String := none
  targetSubId : Option String := none
  senderLocationId : Option String := none
  targetLocationId : Option String := none
  resetOnLogon : Bool := false
  heartbeat : Option Interval := none
  strict : Bool := false
  username : Option String := none
  password : Option String := none
  deriving DecidableEq, Repr

/-- Completes a draft with the usual settings.  Both companies must be set. -/
def Draft.build (draft : Draft) : Except SessionFault Settings := do
  let some senderCompId := draft.senderCompId | throw (missing "sender_comp_id")
  let some targetCompId := draft.targetCompId | throw (missing "target_comp_id")
  let settings : Settings :=
    { beginString := draft.beginString.getD usualBeginString
      id :=
        { senderCompId, targetCompId
          senderSubId := draft.senderSubId
          targetSubId := draft.targetSubId
          senderLocationId := draft.senderLocationId
          targetLocationId := draft.targetLocationId }
      resetOnLogon := draft.resetOnLogon
      heartbeat := draft.heartbeat.getD usualHeartbeat
      strict := draft.strict
      username := draft.username
      password := draft.password }
  settings.validate
  return settings

end Settings

end FixEngine
