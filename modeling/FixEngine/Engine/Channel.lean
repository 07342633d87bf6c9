import FixEngine.Message.Basic
import FixEngine.Session.Phase

/-!
# Channels

Messages that an application originates wait in a channel of limited size until
the connection takes them up.
-/

namespace FixEngine

structure Channel where
  capacity : Nat
  queue : List Message
  /-- The connection still takes messages up. -/
  isOpen : Bool

/-- What became of a message that was to be sent. -/
inductive Sending where
  | sent
  /-- The channel is full, and the sender has to wait. -/
  | pending
  | refused (fault : SessionFault)

namespace Channel

def ofCapacity (capacity : Nat) : Channel := ⟨capacity, [], true⟩

/-- Puts a message into the channel if it is open and not full. -/
def send (c : Channel) (m : Message) : Channel × Sending :=
  if !c.isOpen then (c, .refused .notEstablished)
  else if c.queue.length < c.capacity then ({ c with queue := c.queue ++ [m] }, .sent)
  else (c, .pending)

/-- Puts a message into the channel or refuses it, without waiting. -/
def trySend (c : Channel) (m : Message) : Channel × Sending :=
  match c.send m with
  | (c, .pending) => (c, .refused .notEstablished)
  | done => done

/-- Takes up the message that has waited longest. -/
def receive (c : Channel) : Channel × Option Message :=
  match c.queue with
  | [] => (c, none)
  | m :: rest => ({ c with queue := rest }, some m)

/-- Ends the channel and drops what waits in it. -/
def close (c : Channel) : Channel := { c with queue := [], isOpen := false }

end Channel

end FixEngine
