import FixEngine.Calendar.Precision
import FixEngine.Calendar.Reading

/-!
# Times on the wire

The three temporal values of a message: a date with a time, a time of day and a
date.  The first two remember how many digits of a second they are written with.
-/

namespace FixEngine

namespace Date

/-- Reads the eight bytes of a date. -/
def parse? (bytes : Bytes) : Option Date := do
  if bytes.length ≠ 8 then none
  let text ← Utf8.chars? bytes
  Calendar.whole (← Calendar.takeDate text)

def text (d : Date) : String :=
  Utf8.decodeLossy d.toBytes

end Date

structure TimeOnly where
  time : TimeOfDay
  precision : Precision
  deriving DecidableEq, Repr

namespace TimeOnly

/-- Reads `HH:MM:SS` with an optional fraction. -/
def parse? (bytes : Bytes) : Option TimeOnly := do
  let split ← Fraction.split? bytes
  if split.baseLength ≠ 8 then none
  let time ← Calendar.whole (← Calendar.takeClock split.nanos split.base)
  return ⟨time, split.precision⟩

def toBytes (t : TimeOnly) : Bytes :=
  t.time.clockBytes ++ Fraction.render t.time.nanos t.precision

def text (t : TimeOnly) : String :=
  Utf8.decodeLossy t.toBytes

def millis (t : TimeOnly) : Nat := t.time.millis

end TimeOnly

structure Timestamp where
  date : Date
  time : TimeOfDay
  precision : Precision
  deriving DecidableEq, Repr

namespace Timestamp

def epoch : Timestamp := ⟨Date.epoch, TimeOfDay.midnight, .millis⟩

/-- The moment some seconds and nanoseconds after the first of 1970, if the
calendar has it. -/
def ofSeconds? (seconds : Int) (nanos : Nat) (precision : Precision) : Option Timestamp := do
  let date ← Date.ofDayNumber? (seconds / Calendar.secondsPerDay)
  let time ← TimeOfDay.ofSecond? (seconds % Calendar.secondsPerDay).toNat nanos
  return ⟨date, time, precision⟩

/-- The moment some milliseconds after the first of 1970, if the calendar has
it. -/
def ofEpochMillis? (millis : Int) : Option Timestamp :=
  ofSeconds? (millis / 1000) ((millis % 1000).toNat * 1000000) .millis

/-- Milliseconds since the first moment of 1970. -/
def epochMillis (t : Timestamp) : Int :=
  t.date.dayNumber * (Calendar.secondsPerDay * 1000) + t.time.millis

/-- The same moment at another precision. -/
def withPrecision (t : Timestamp) (precision : Precision) : Timestamp :=
  { t with precision }

/-- Reads `YYYYMMDD-HH:MM:SS` with an optional fraction. -/
def parse? (bytes : Bytes) : Option Timestamp := do
  let split ← Fraction.split? bytes
  if split.baseLength ≠ 17 then none
  let (date, rest) ← Calendar.takeDate split.base
  let rest ← Calendar.takeMark '-' rest
  let time ← Calendar.whole (← Calendar.takeClock split.nanos rest)
  return ⟨date, time, split.precision⟩

def toBytes (t : Timestamp) : Bytes :=
  t.date.toBytes ++ Ascii.minus :: t.time.clockBytes ++ Fraction.render t.time.nanos t.precision

def text (t : Timestamp) : String :=
  Utf8.decodeLossy t.toBytes

end Timestamp

end FixEngine
