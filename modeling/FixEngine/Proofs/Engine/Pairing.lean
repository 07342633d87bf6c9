import FixEngine.Proofs.Engine.Sending

/-!
# Two engines joined by channels

An initiator and an acceptor, each with an engine of its own, are joined by two
channels that keep the order of messages and lose none.  A step is anything that
one of the two does: its connection comes up, a message arrives, or its
application sends.
-/

namespace FixEngine

/-- The two sides of a session. -/
inductive Side where
  | initiator
  | acceptor
  deriving DecidableEq, Repr

namespace Side

def other : Side → Side
  | initiator => acceptor
  | acceptor => initiator

@[simp]
theorem other_other (side : Side) : side.other.other = side := by
  cases side <;> rfl

@[simp]
theorem other_ne (side : Side) : side.other ≠ side := by
  cases side <;> exact Side.noConfusion

theorem forall_iff {P : Side → Prop} (side : Side) : (∀ x, P x) ↔ P side ∧ P side.other := by
  constructor
  · intro h
    exact ⟨h side, h side.other⟩
  · rintro ⟨hside, hother⟩ x
    cases side <;> cases x <;> assumption

end Side

/-- A handler with what the handlers of its engine have in common. -/
structure Peer where
  handler : Handler
  shared : Shared

/-- Two sides and the messages on their way to each. -/
structure Link where
  peer : Side → Peer
  inbox : Side → List Message

namespace Link

variable (l : Link) (side : Side) (peer : Peer) (inbox out : List Message)

/-- A side has done something: its inbox is replaced, and what it sends is added
to the inbox of the other side. -/
def put : Link where
  peer x := if x = side then peer else l.peer x
  inbox x := if x = side then inbox else l.inbox x ++ out

@[simp]
theorem peer_put_self : (l.put side peer inbox out).peer side = peer := if_pos rfl

@[simp]
theorem peer_put_other : (l.put side peer inbox out).peer side.other = l.peer side.other :=
  if_neg side.other_ne

@[simp]
theorem inbox_put_self : (l.put side peer inbox out).inbox side = inbox := if_pos rfl

@[simp]
theorem inbox_put_other :
    (l.put side peer inbox out).inbox side.other = l.inbox side.other ++ out :=
  if_neg side.other_ne

/-- The numbers on their way to each side run from the one that it expects to
the one that the other side sends next. -/
def Flows : Prop :=
  ∀ side, Consecutive (l.peer side).handler.expects (l.inbox side)
    (l.peer side.other).handler.nextNumber

/-- A side has gone through a turn. -/
def adopt (t : Turn) : Link :=
  l.put side ⟨t.handler, t.shared⟩ inbox (t.actions.filterMap Action.message?)

variable {l side peer inbox out} {t : Turn} {messages : List Message} {phase : Phase}
  {id : SessionId} {expected : UInt32}

theorem adopt_of_actions (hactions : t.actions = messages.map .send) :
    l.adopt side inbox t = l.put side ⟨t.handler, t.shared⟩ inbox messages := by
  rw [adopt, hactions, Action.filterMap_message?_map_send]

theorem Flows.put (h : l.Flows)
    (hpeer : (l.peer side).handler.Becomes peer.handler phase id expected messages)
    (hinbox : Consecutive expected inbox (l.peer side.other).handler.nextNumber) :
    (l.put side peer inbox messages).Flows := by
  rw [Flows, Side.forall_iff side]
  constructor
  · rw [peer_put_self, inbox_put_self, peer_put_other, hpeer.expects]
    exact hinbox
  · rw [peer_put_other, inbox_put_other, Side.other_other, peer_put_self]
    have hother := h side.other
    rw [Side.other_other] at hother
    exact hother.append hpeer.consecutive

end Link

/-- What the two engines are set up with. -/
structure Pairing where
  /-- The session that the initiator asks for. -/
  settings : Settings
  /-- The acceptor acts upon unexpected sequence numbers. -/
  strict : Bool
  owner : Side → Owner
  channel : Side → Option Owner
  services : Side → Services

namespace Pairing

variable (p : Pairing)

/-- The services of a side when its clock shows a time. -/
def servicesAt (side : Side) (now : Timestamp) : Services := { p.services side with now }

def handler : Side → Handler
  | .initiator => .initiator p.settings (p.owner .initiator) (p.channel .initiator)
  | .acceptor => .acceptor p.strict (p.owner .acceptor) (p.channel .acceptor)

/-- The identity of the session as each side sees it. -/
def id : Side → SessionId
  | .initiator => p.settings.id
  | .acceptor => p.settings.id.reversed

/-- Before the connection is up. -/
def start : Link := ⟨fun side => ⟨p.handler side, .empty⟩, fun _ => []⟩

/-- What the initiator does when its connection is up. -/
def connected (now : Timestamp) : Turn :=
  (p.handler .initiator).connected (p.servicesAt .initiator now) .empty

/-- What a side does with a message. -/
def received (l : Link) (side : Side) (now : Timestamp) (m : Message) : Turn :=
  (l.peer side).handler.receive (p.servicesAt side now) (l.peer side).shared m

/-- The steps of the two sides, with the actions that a side answers with. -/
inductive Step : Link → List Action → Link → Prop where
  | connect (now : Timestamp) :
      Step p.start (p.connected now).actions
        (p.start.adopt .initiator [] (p.connected now))
  | deliver {l : Link} {m : Message} {rest : List Message} (side : Side) (now : Timestamp)
      (hinbox : l.inbox side = m :: rest) :
      Step l (p.received l side now m).actions
        (l.adopt side rest (p.received l side now m))
  | stamp {l : Link} {m stamped : Message} {number : UInt32} {after : Handler} (side : Side)
      (now : Timestamp) (hm : m.IsApplication)
      (hstamp : (l.peer side).handler.stamp now m = ⟨.ok number, after, stamped⟩) :
      Step l [] (l.put side ⟨after, (l.peer side).shared⟩ (l.inbox side) [stamped])

/-- What the two sides can come to. -/
inductive Reachable : Link → Prop where
  | start : Reachable p.start
  | step {l l' : Link} {actions : List Action} (hl : Reachable l) (h : p.Step l actions l') :
      Reachable l'

end Pairing

end FixEngine
