import FixEngine.Engine.Reject
import FixEngine.Session.Identity

/-!
# Applications

An application is told of logons, logouts and messages.  It answers a message
with replies or with a refusal, which may depend on all that it was told before.
-/

namespace FixEngine

/-- What an application is told. -/
inductive Event where
  | loggedOn (id : SessionId)
  | loggedOut (id : SessionId)
  | received (id : SessionId) (message : Message)
  deriving DecidableEq, Repr

namespace Event

def shown : Event → String
  | loggedOn id => s!"logon {id.shown}"
  | loggedOut id => s!"logout {id.shown}"
  | received id message => s!"message {id.shown} {message.shown}"

end Event

/-- What an application answers to a message. -/
abbrev Answer := Except BusinessReject (List Message)

structure Application where
  /-- The answer to a message of a session, given the events before it. -/
  answer : List Event → SessionId → Message → Answer

namespace Application

/-- Takes every message and never replies. -/
def silent : Application := ⟨fun _ _ _ => .ok []⟩

/-- A rule that answers the messages of a type. -/
structure Rule where
  msgType : String
  /-- A text that a body field must hold. -/
  field : Option (Tag × String)
  answer : Answer

/-- The rule answers a message. -/
def Rule.matches (rule : Rule) (m : Message) : Bool :=
  m.msgType?.any (·.text = rule.msgType) &&
    rule.field.all fun (tag, text) => m.text? tag = some text

/-- Answers with the first rule that does; other messages get no reply. -/
def ofRules (rules : List Rule) : Application :=
  ⟨fun _ _ m => ((rules.find? (·.matches m)).map (·.answer)).getD (.ok [])⟩

end Application

/-- Decides whether a logon is accepted. -/
abbrev Authenticator := Message → Bool

namespace Authenticator

def acceptAll : Authenticator := fun _ => true

/-- Accepts a logon with the name of a user and the user's password.  The last
password listed for a name is the one that counts. -/
def ofUsers (users : List (String × String)) : Authenticator := fun logon =>
  match logon.text? Tag.username, logon.text? Tag.password with
  | some username, some password =>
    (users.reverse.find? (·.1 = username)).any (·.2 = password)
  | _, _ => false

end Authenticator

end FixEngine
