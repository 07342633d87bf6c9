import FixEngine.Number.Numeral
import FixEngine.Text.Utf8

/-!
# Exact decimals

Prices, quantities and amounts are a signed 64-bit integer with a count of
decimal places.  The places are kept, so `1.5` and `1.50` are different values
and each is written back as it was read.
-/

namespace FixEngine

/-- Why a text or a number is no decimal. -/
inductive NumericFault where
  /-- Something other than digits, a leading sign and one point, or no digit. -/
  | invalidLiteral (text : String)
  /-- The digits do not fit the 64-bit range, or the places are too many. -/
  | overflow (text : String)
  deriving DecidableEq, Repr

namespace NumericFault

def name : NumericFault → String
  | invalidLiteral _ => "InvalidNumericLiteral"
  | overflow _ => "Overflow"

def message : NumericFault → String
  | invalidLiteral text => s!"invalid numeric literal: '{text}'"
  | overflow text => s!"numeric literal out of range: '{text}'"

end NumericFault

/-- The number `scaled / 10 ^ scale`. -/
structure Decimal where
  scaled : Int64
  scale : UInt8
  deriving DecidableEq, Repr, Inhabited

namespace Decimal

def zero : Decimal := ⟨0, 0⟩

def ofInt64 (value : Int64) : Decimal := ⟨value, 0⟩

/-! ### Writing -/

/-- Places a point `scale` digits before the end, after at least one digit. -/
def placePoint (scale : Nat) (digits : Bytes) : Bytes :=
  if scale = 0 then digits
  else if digits.length ≤ scale then
    Ascii.zero :: Ascii.point :: (List.replicate (scale - digits.length) Ascii.zero ++ digits)
  else
    digits.take (digits.length - scale) ++ Ascii.point :: digits.drop (digits.length - scale)

/-- The canonical form of `value / 10 ^ scale`, for an integer of any size. -/
def render (value : Int) (scale : Nat) : Bytes :=
  let magnitude := placePoint scale (Numeral.ofNat value.natAbs)
  if value < 0 then Ascii.minus :: magnitude else magnitude

/-- The canonical ASCII form: a minus sign when negative, at least one digit,
and exactly `scale` digits after the point. -/
def toBytes (d : Decimal) : Bytes :=
  render d.scaled.toInt d.scale.toNat

def text (d : Decimal) : String :=
  Utf8.decodeLossy d.toBytes

/-! ### Reading -/

/-- What has been read of a literal. -/
structure Reading where
  /-- All digits so far as one signed integer. -/
  scaled : Int
  /-- How many of them stand after the point. -/
  scale : Nat
  /-- The point has been read. -/
  pastPoint : Bool
  /-- A digit has been read. -/
  hasDigit : Bool
  deriving DecidableEq, Repr

/-- The two ways in which reading fails, without the text of the literal. -/
inductive Refusal where
  | malformed
  | outOfRange
  deriving DecidableEq, Repr

/-- Before the first digit. -/
def Reading.start : Reading := ⟨0, 0, false, false⟩

/-- Reads one byte after the sign. -/
def Reading.step (negative : Bool) (r : Reading) (b : UInt8) : Except Refusal Reading :=
  if Ascii.isDigit b then
    let scaled := Numeral.shift negative r.scaled (Ascii.digitValue b)
    let scale := if r.pastPoint then r.scale + 1 else r.scale
    if fitsInt64 scaled && scale ≤ 255 then
      .ok { r with scaled, scale, hasDigit := true }
    else .error .outOfRange
  else if b = Ascii.point && !r.pastPoint then .ok { r with pastPoint := true }
  else .error .malformed

/-- Reads the bytes after the sign. -/
def readMagnitude (negative : Bool) (bytes : Bytes) : Except Refusal Decimal := do
  let r ← bytes.foldlM (Reading.step negative) Reading.start
  if r.hasDigit then .ok ⟨Int64.ofInt r.scaled, UInt8.ofNat r.scale⟩
  else .error .malformed

/-- Reads an optional sign and the magnitude after it. -/
def read : Bytes → Except Refusal Decimal
  | [] => readMagnitude false []
  | b :: rest =>
    if b = Ascii.minus then readMagnitude true rest
    else if b = Ascii.plus then readMagnitude false rest
    else readMagnitude false (b :: rest)

/-- Reads a literal such as `-12.0500`; the digits after the point give the
scale. -/
def parse (bytes : Bytes) : Except NumericFault Decimal :=
  match read bytes with
  | .ok d => .ok d
  | .error .malformed => .error (.invalidLiteral (Utf8.decodeLossy bytes))
  | .error .outOfRange => .error (.overflow (Utf8.decodeLossy bytes))

/-- Reads the literal of `length` bytes that begins `offset` bytes into a text. -/
def parseRange (bytes : Bytes) (offset length : Nat) : Except NumericFault Decimal :=
  if offset + length ≤ bytes.length then parse ((bytes.drop offset).take length)
  else .error (.invalidLiteral
    s!"range {offset}+{length} outside {bytes.length} bytes")

/-! ### Conversions -/

/-- A power of ten, if it has 64 bits. -/
def powerOfTen? (n : Nat) : Option Int64 :=
  let power := Nat.pow 10 n
  if fitsInt64 power then some (Int64.ofInt power) else none

/-- The integral part, truncated toward zero.  A power of ten beyond 64 bits is
greater than every scaled integer. -/
def integralPart (d : Decimal) : Int64 :=
  match powerOfTen? d.scale.toNat with
  | some divisor => d.scaled / divisor
  | none => 0

/-- The greatest number of places of a wide decimal. -/
def maxWideScale : Nat := 28

/-- Whether the value can be handed over as a wide decimal, which holds a
96-bit integer and at most 28 places. -/
def fitsWide (d : Decimal) : Bool :=
  d.scale.toNat ≤ maxWideScale

/-- The decimal of a wide integer with a scale, if the integer has 64 bits. -/
def ofWide (mantissa : Int) (scale : UInt8) : Except NumericFault Decimal :=
  if fitsInt64 mantissa then .ok ⟨Int64.ofInt mantissa, scale⟩
  else .error (.overflow (Utf8.decodeLossy (render mantissa scale.toNat)))

/-- Orders by the scaled integer, then by the scale. -/
instance : Ord Decimal where
  compare a b := (compare a.scaled b.scaled).then (compare a.scale b.scale)

end Decimal

end FixEngine
