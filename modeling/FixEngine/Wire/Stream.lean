import FixEngine.Wire.Assembly
import FixEngine.Wire.Encoding
import FixEngine.Wire.Intake

/-!
# Streams of messages

A stream takes in bytes, cuts them into records and assembles messages.  A bad
message is handed over as a fault and the stream goes on; only a record beyond
the limit is a fault of the stream itself.
-/

namespace FixEngine

/-- Why a stream is interrupted. -/
inductive StreamFault where
  | recordTooLong (length limit : Nat)
  | encoding (fault : EncodingFault)
  /-- A failure of the medium, in its own words. -/
  | medium (text : String)
  deriving DecidableEq, Repr

namespace StreamFault

def name : StreamFault → String
  | recordTooLong _ _ => "FieldTooLong"
  | encoding _ => "Encode"
  | medium _ => "Io"

def message : StreamFault → String
  | recordTooLong length limit => s!"field too long: {length} bytes exceeds maximum {limit}"
  | encoding fault => s!"encode error: {fault.message}"
  | medium text => s!"io error: {text}"

end StreamFault

/-- The receiving side of a connection. -/
structure Stream where
  dictionary : Dictionary
  intake : Intake
  assembler : Assembler

namespace Stream

def start (dictionary : Dictionary) (limit : Nat) : Stream :=
  ⟨dictionary, .empty limit, .idle⟩

def push (s : Stream) (bytes : Bytes) : Stream :=
  { s with intake := s.intake.push bytes }

/-- What is ready on a stream, if anything. -/
abbrev Ready := Option (Except StreamFault Delivery)

/-- Takes up records until one of them hands over a message or a fault. -/
def next (s : Stream) : Stream × Ready :=
  match _h : s.intake.take.2 with
  | .nothing => ({ s with intake := s.intake.take.1 }, none)
  | .tooLong length =>
    ({ s with intake := s.intake.take.1 }, some (.error (.recordTooLong length s.intake.limit)))
  | .record raw =>
    let stepped := s.assembler.step s.dictionary raw
    let rest : Stream := { s with intake := s.intake.take.1, assembler := stepped.1 }
    match stepped.2 with
    | some delivery => (rest, some (.ok delivery))
    | none => rest.next
termination_by s.intake.buffer.length
decreasing_by exact Intake.length_take_lt _h

/-- What is handed over leaves fewer bytes behind. -/
theorem length_next_lt {s : Stream} {item : Except StreamFault Delivery}
    (h : s.next.2 = some item) : s.next.1.intake.buffer.length < s.intake.buffer.length := by
  fun_induction next s with
  | case1 => simp at h
  | case2 s length hlong => exact Intake.length_take_lt_of_tooLong hlong
  | case3 s raw hraw => exact Intake.length_take_lt hraw
  | case4 s raw hraw stepped rest _ ih =>
    exact Nat.lt_trans (ih h) (Intake.length_take_lt hraw)

/-- Takes up everything that is ready, in order. -/
def drain (s : Stream) : Stream × List (Except StreamFault Delivery) :=
  match _h : s.next.2 with
  | none => (s.next.1, [])
  | some item =>
    let (last, items) := s.next.1.drain
    (last, item :: items)
termination_by s.intake.buffer.length
decreasing_by exact length_next_lt _h

/-- Takes up what is left when no more bytes will come.  A piece of a record or
of a message is dropped. -/
def finish (s : Stream) : Stream × Ready :=
  match s.next with
  | (s, some ready) => (s, some ready)
  | (s, none) =>
    if s.intake.buffer.isEmpty && s.assembler.isIdle then (s, none)
    else ({ s with intake := s.intake.clear, assembler := .idle }, none)

/-- Writes a message at the end of bytes that wait to be sent. -/
def write (pending : Bytes) (m : Message) : Except EncodingFault Bytes :=
  m.encode.map (pending ++ ·)

end Stream

end FixEngine
