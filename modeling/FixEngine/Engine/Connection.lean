import FixEngine.Engine.Logon
import FixEngine.Wire.Room
import FixEngine.Wire.Stream

/-!
# Connections

A connection joins a handler to a stream of bytes.  It performs the actions of
the handler, hands it the messages that arrive and stamps those that the
application sends.  A message that cannot be read or written is left out, and
the connection goes on; a record beyond the limit ends it.
-/

namespace FixEngine

structure Connection where
  handler : Handler
  shared : Shared
  stream : Stream
  /-- Where the bytes that arrive are read to. -/
  room : Room
  /-- All bytes written to the other side. -/
  written : Bytes
  /-- How the connection ended, if it did. -/
  outcome : Option (Except StreamFault Unit)

namespace Connection

def isOver (c : Connection) : Bool := c.outcome.isSome

/-- Ends the connection, unless it ended before. -/
def finish (c : Connection) (outcome : Except StreamFault Unit) : Connection :=
  if c.isOver then c
  else
    let t := c.handler.disconnected c.shared
    { c with handler := t.handler, shared := t.shared, outcome := some outcome }

/-- Writes a message if it may stand on the wire. -/
def write (c : Connection) (m : Message) : Connection :=
  match Stream.write c.written m with
  | .ok written => { c with written }
  | .error _ => c

/-- Performs actions up to the first that closes the connection. -/
def perform (c : Connection) : List Action → Connection
  | [] => c
  | .send m :: rest => (c.write m).perform rest
  | .disconnect _ :: _ => c.finish (.ok ())

/-- Takes over what a handler has done and performs its actions. -/
def adopt (c : Connection) (t : Turn) : Connection :=
  { c with handler := t.handler, shared := t.shared }.perform t.actions

def start (services : Services) (handler : Handler) (shared : Shared) (stream : Stream) :
    Connection :=
  let c : Connection :=
    { handler, shared, stream, room := .initial, written := [], outcome := none }
  c.adopt (handler.connected services shared)

/-- Takes up what the stream has handed over. -/
def takeUp (c : Connection) (services : Services) (item : Except StreamFault Delivery) :
    Connection :=
  if c.isOver then c
  else
    match item with
    | .error fault => c.finish (.error fault)
    | .ok (.error _) => c
    | .ok (.ok m) => c.adopt (c.handler.receive services c.shared m)

/-- Takes in the bytes of one reading. -/
def takeIn (c : Connection) (services : Services) (bytes : Bytes) : Connection :=
  let (stream, items) := (c.stream.push bytes).drain
  items.foldl (fun c item => c.takeUp services item) { c with stream }

/-- Receives bytes from the other side, in as many readings as the room for them
requires.  What is read is taken up before more is read, so a record beyond the
limit is noticed as soon as the part of it that was read exceeds the limit. -/
def receive (c : Connection) (services : Services) (bytes : Bytes) : Connection :=
  if _h : c.isOver ∨ bytes = [] then c
  else
    let waiting := c.stream.intake.buffer.length
    let room := c.room.renewed waiting
    let piece := bytes.take room.free
    let next := c.takeIn services piece
    let takenUp := waiting + piece.length - next.stream.intake.buffer.length
    { next with room := room.afterReading piece.length takenUp }.receive services
      (bytes.drop room.free)
termination_by bytes.length
decreasing_by
  have hroom := Room.free_renewed_pos c.room c.stream.intake.buffer.length
  have hbytes := List.length_pos_iff.2 (not_or.1 _h).2
  rw [List.length_drop]
  omega

/-- Sends a message that the application originates.  It is left out unless
the session is established. -/
def send (c : Connection) (services : Services) (m : Message) : Except SessionFault Connection :=
  if c.isOver then .error .notEstablished
  else
    let stamping := c.handler.stamp services.now m
    let next := { c with handler := stamping.handler }
    match stamping.result with
    | .ok _ => .ok (next.write stamping.message)
    | .error _ => .ok next

/-- The other side has closed the connection. -/
def peerClosed (c : Connection) : Connection :=
  { c with stream := c.stream.finish.1 }.finish (.ok ())

end Connection

end FixEngine
