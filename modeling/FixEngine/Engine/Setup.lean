import FixEngine.Dictionary.Basic
import FixEngine.Engine.Handler
import FixEngine.Wire.Intake

/-!
# Setting up an engine

An engine is set up with a dictionary and limits and, if it is to initiate
connections, with the settings of a session.
-/

namespace FixEngine

/-- What an engine is set up with. -/
structure EngineSettings where
  /-- The session of connections that the engine initiates. -/
  session : Option Settings := none
  dictionary : Dictionary := Dictionary.usual
  /-- The greatest length of a record. -/
  recordLimit : Nat := Intake.usualLimit
  /-- Accepted connections act upon unexpected sequence numbers. -/
  strict : Bool := false
  /-- How many messages may wait in the channel of a connection. -/
  channelCapacity : Nat := 1024

structure Engine where
  settings : EngineSettings
  services : Services
  shared : Shared

namespace Engine

/-- Sets up an engine.  The session settings must be complete, and channels
must hold at least one message. -/
def build (settings : EngineSettings) (services : Services) : Except SessionFault Engine := do
  settings.session.forM Settings.validate
  if settings.channelCapacity = 0 then
    throw (.configuration "outbound capacity must be positive")
  return ⟨settings, services, .empty⟩

def initiatorSettings (e : Engine) : Except SessionFault Settings :=
  match e.settings.session with
  | some settings => .ok settings
  | none => .error (.configuration "initiator requires session settings")

/-- The session for which messages can be sent now, if its identity has a
channel. -/
def sender? (e : Engine) (id : SessionId) : Option SessionId :=
  if e.shared.senders.contains id then some id else none

end Engine

namespace Shared

/-- A summary for readers. -/
def summary (s : Shared) : String :=
  let sessions := s.sessions.size
  let outbound := s.senders.size
  s!"EngineContext \x7b sessions: {sessions}, outbound: {outbound}, .. \x7d"

end Shared

end FixEngine
