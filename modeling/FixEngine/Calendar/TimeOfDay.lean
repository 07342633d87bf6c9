import FixEngine.Number.Numeral

/-!
# Times of day

A time of day is a second since midnight and nanoseconds within it.  A leap
second has no number of its own: it is the second before it with a thousand
million nanoseconds more, and it is written with the second 60.
-/

namespace FixEngine

namespace Calendar

def nanosPerSecond : Nat := 1000000000

def secondsPerDay : Nat := 86400

/-- The two numbers name a moment of a day; nanoseconds beyond the second are a
leap second and follow the last second of a minute only. -/
def IsTime (second nanos : Nat) : Prop :=
  second < secondsPerDay ∧ nanos < 2 * nanosPerSecond ∧
    (nanosPerSecond ≤ nanos → second % 60 = 59)

instance (second nanos : Nat) : Decidable (IsTime second nanos) := by
  unfold IsTime; infer_instance

end Calendar

structure TimeOfDay where
  /-- Whole seconds since midnight. -/
  second : Nat
  /-- Nanoseconds since that second began. -/
  nanos : Nat
  isTime : Calendar.IsTime second nanos
  deriving DecidableEq, Repr

namespace TimeOfDay

def ofSecond? (second nanos : Nat) : Option TimeOfDay :=
  if h : Calendar.IsTime second nanos then some ⟨second, nanos, h⟩ else none

/-- The time shown by a clock.  The second 60 is read as the end of second 59. -/
def ofClock? (hour minute second nanos : Nat) : Option TimeOfDay :=
  if hour < 24 ∧ minute < 60 ∧ second ≤ 60 then
    ofSecond? (hour * 3600 + minute * 60 + min second 59) nanos
  else none

def midnight : TimeOfDay := ⟨0, 0, by decide⟩

def hour (t : TimeOfDay) : Nat := t.second / 3600

def minute (t : TimeOfDay) : Nat := t.second / 60 % 60

/-- The second shown, 60 in a leap second. -/
def clockSecond (t : TimeOfDay) : Nat :=
  t.second % 60 + t.nanos / Calendar.nanosPerSecond

/-- Whole milliseconds since midnight. -/
def millis (t : TimeOfDay) : Nat :=
  t.second * 1000 + t.nanos / 1000000

/-- The form `HH:MM:SS`. -/
def clockBytes (t : TimeOfDay) : Bytes :=
  Numeral.padded 2 t.hour ++ 0x3A :: (Numeral.padded 2 t.minute ++ 0x3A ::
    Numeral.padded 2 t.clockSecond)

end TimeOfDay

end FixEngine
