import FixEngine.Number.Numeral
import FixEngine.Text.Utf8

/-!
# Fractions of a second

A written time may have a point and up to nine digits after it.  How many there
are decides the precision at which the time is written again.
-/

namespace FixEngine

/-- How many digits of a second are written. -/
inductive Precision where
  | seconds
  | millis
  | micros
  | nanos
  deriving DecidableEq, Repr

namespace Precision

/-- Times are written with milliseconds unless something else is asked for. -/
def usual : Precision := millis

/-- The precision of a fraction that was read with so many digits. -/
def ofDigits? (count : Nat) : Option Precision :=
  if count ≤ 3 then some millis
  else if count ≤ 6 then some micros
  else if count ≤ 9 then some nanos
  else none

def digits : Precision → Nat
  | seconds => 0
  | millis => 3
  | micros => 6
  | nanos => 9

end Precision

namespace Fraction

/-- The point and the first digits of the nanoseconds.  A leap second shows the
last nanosecond. -/
def render (nanos : Nat) (precision : Precision) : Bytes :=
  if precision.digits = 0 then []
  else
    Ascii.point ::
      Numeral.padded precision.digits (min nanos 999999999 / Nat.pow 10 (9 - precision.digits))

/-- The nanoseconds that the digits after a point stand for. -/
def nanosOf (digits : Bytes) : Nat :=
  Numeral.value digits * Nat.pow 10 (9 - digits.length)

/-- A written time cut at its first point. -/
structure Split where
  base : List Char
  /-- How many bytes they take. -/
  baseLength : Nat
  nanos : Nat
  precision : Precision

/-- Cuts a written time at its first point.  A point is followed by one to nine
digits. -/
def split? (bytes : Bytes) : Option Split := do
  let head := bytes.takeWhile (· ≠ Ascii.point)
  let base ← Utf8.chars? head
  match bytes.dropWhile (· ≠ Ascii.point) with
  | [] => return ⟨base, head.length, 0, Precision.usual⟩
  | _ :: digits =>
    if digits.isEmpty || !Numeral.allDigits digits then none
    else
      let precision ← Precision.ofDigits? digits.length
      return ⟨base, head.length, nanosOf digits, precision⟩

end Fraction

end FixEngine
