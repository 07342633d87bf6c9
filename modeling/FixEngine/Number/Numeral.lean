import FixEngine.Text.Ascii

/-!
# Decimal numerals

Naturals and integers as ASCII digits: the canonical numerals without needless
leading zeros, numerals padded to a width, and the reader of signed 64-bit
integers, which takes one optional sign and any number of leading zeros.
-/

namespace FixEngine

namespace Numeral

/-- The canonical numeral of a natural number. -/
def ofNat (n : Nat) : Bytes :=
  (Nat.toDigits 10 n).map Char.toUInt8

/-- The canonical numeral of an integer, with a minus sign when it is negative. -/
def ofInt (i : Int) : Bytes :=
  if i < 0 then Ascii.minus :: ofNat i.natAbs else ofNat i.natAbs

/-- The numeral of `n`, filled up with zeros on the left to `width` digits. -/
def padded (width n : Nat) : Bytes :=
  let digits := ofNat n
  List.replicate (width - digits.length) Ascii.zero ++ digits

/-- The number that a string of digits denotes. -/
def value (digits : Bytes) : Nat :=
  digits.foldl (fun acc b => acc * 10 + Ascii.digitValue b) 0

def allDigits (bytes : Bytes) : Bool :=
  bytes.all Ascii.isDigit

end Numeral

/-- Whether an integer lies in the signed 64-bit range. -/
def fitsInt64 (i : Int) : Bool :=
  -0x8000000000000000 ≤ i && i ≤ 0x7FFFFFFFFFFFFFFF

/-- Why a text is no signed 64-bit integer. -/
inductive IntegerFault where
  | empty
  | invalidDigit
  | tooLarge
  | tooSmall
  deriving DecidableEq, Repr

namespace IntegerFault

def message : IntegerFault → String
  | empty => "cannot parse integer from empty string"
  | invalidDigit => "invalid digit found in string"
  | tooLarge => "number too large to fit in target type"
  | tooSmall => "number too small to fit in target type"

end IntegerFault

namespace Numeral

/-- Appends a digit to a number on the side of its sign. -/
def shift (negative : Bool) (acc : Int) (digit : Nat) : Int :=
  if negative then acc * 10 - digit else acc * 10 + digit

/-- Reads the digits after the sign.  The first byte that is no digit, or that
leads out of the range, decides the fault. -/
def readDigits (negative : Bool) : Int → Bytes → Except IntegerFault Int
  | acc, [] => .ok acc
  | acc, b :: rest =>
    if Ascii.isDigit b then
      let next := shift negative acc (Ascii.digitValue b)
      if fitsInt64 next then readDigits negative next rest
      else .error (if negative then .tooSmall else .tooLarge)
    else .error .invalidDigit

/-- Reads the unsigned rest of a numeral, which must not be empty. -/
def readUnsigned (negative : Bool) (digits : Bytes) : Except IntegerFault Int :=
  if digits.isEmpty then .error .invalidDigit else readDigits negative 0 digits

def readInt : Bytes → Except IntegerFault Int
  | [] => .error .empty
  | b :: rest =>
    if b = Ascii.minus then readUnsigned true rest
    else if b = Ascii.plus then readUnsigned false rest
    else readUnsigned false (b :: rest)

def readInt64 (bytes : Bytes) : Except IntegerFault Int64 :=
  (readInt bytes).map Int64.ofInt

end Numeral

end FixEngine
