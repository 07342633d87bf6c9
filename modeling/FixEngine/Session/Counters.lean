import FixEngine.Session.Identity

/-!
# Sequence numbers

Each side numbers its messages.  Two counters hold the number of the next
message to send and the number expected next from the other side.  Numbers have
32 bits and begin again at zero after the greatest.
-/

namespace FixEngine

/-- How a received number compares with the expected one. -/
inductive Arrival where
  | inOrder
  | tooLow (expected received : UInt32)
  | gap (expected received : UInt32)
  deriving DecidableEq, Repr

namespace Arrival

def isInOrder : Arrival → Bool
  | inOrder => true
  | _ => false

/-- Numbers before the received one are missing. -/
def isGap : Arrival → Bool
  | gap _ _ => true
  | _ => false

/-- The number was expected before. -/
def isTooLow : Arrival → Bool
  | tooLow _ _ => true
  | _ => false

end Arrival

/-- The two counters of a session. -/
structure Counters where
  nextOutgoing : UInt32
  nextIncoming : UInt32
  deriving DecidableEq, Repr

namespace Counters

def start : Counters := ⟨1, 1⟩

/-- Takes the next outgoing number. -/
def allocate (c : Counters) : UInt32 × Counters :=
  (c.nextOutgoing, { c with nextOutgoing := c.nextOutgoing + 1 })

def compareIncoming (c : Counters) (received : UInt32) : Arrival :=
  if received = c.nextIncoming then .inOrder
  else if received < c.nextIncoming then .tooLow c.nextIncoming received
  else .gap c.nextIncoming received

/-- Counts a received number if it is the expected one. -/
def receive (c : Counters) (received : UInt32) : Arrival × Counters :=
  match c.compareIncoming received with
  | .inOrder => (.inOrder, { c with nextIncoming := received + 1 })
  | arrival => (arrival, c)

/-- Moves the expectation forward to a number, never back. -/
def advance (c : Counters) (number : UInt32) : Counters :=
  { c with nextIncoming := max c.nextIncoming number }

@[simp]
theorem nextOutgoing_advance (c : Counters) (number : UInt32) :
    (c.advance number).nextOutgoing = c.nextOutgoing := rfl

end Counters

/-- The numbers with which new sessions begin. -/
structure Numbering where
  outgoing : SessionId → UInt32
  incoming : SessionId → UInt32

namespace Numbering

/-- The same two numbers for every session. -/
def fixed (outgoing incoming : UInt32) : Numbering :=
  ⟨fun _ => outgoing, fun _ => incoming⟩

/-- Every session begins with one. -/
def fresh : Numbering := fixed 1 1

end Numbering

end FixEngine
