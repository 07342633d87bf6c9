import FixEngine.Wire.Checksum
import FixEngine.Wire.Fault

/-!
# Records on the wire

A record is `tag=value` with the delimiter after it.  A tag has one to ten
digits, leading zeros included, and is a positive 32-bit number; a value has at
least one byte and may hold further `=` signs.
-/

namespace FixEngine

namespace Tag

def parse? (bytes : Bytes) : Option Tag :=
  let number := Numeral.value bytes
  if 1 ≤ bytes.length ∧ bytes.length ≤ 10 ∧ Numeral.allDigits bytes ∧ 0 < number
      ∧ number < 4294967296
  then some (UInt32.ofNat number)
  else none

end Tag

namespace Record

/-- A record without the delimiter after it. -/
def trimmed (raw : Bytes) : Bytes :=
  if raw.getLast? = some Ascii.soh then raw.dropLast else raw

/-- Reads a record, with or without the delimiter after it. -/
def parse (raw : Bytes) : Except DecodingFault Record :=
  let text := trimmed raw
  let head := text.takeWhile (· ≠ Ascii.equals)
  match text.dropWhile (· ≠ Ascii.equals) with
  | [] => .error (.malformedRecord (Utf8.decodeLossy text))
  | _ :: value =>
    match Tag.parse? head with
    | none => .error (.invalidTag (Utf8.decodeLossy head))
    | some tag =>
      if value.isEmpty then .error (.invalidValue tag .empty) else .ok ⟨tag, value⟩

/-- A checksum with a record added, the delimiter after it included. -/
def addTo (sum : UInt8) (raw : Bytes) : UInt8 :=
  Checksum.extend sum (trimmed raw ++ [Ascii.soh])

/-- The records of a byte string, each with its delimiter; the last may lack
it. -/
def cut : Bytes → List Bytes
  | [] => []
  | b :: rest =>
    if b = Ascii.soh then [b] :: cut rest
    else
      match cut rest with
      | [] => [[b]]
      | first :: more => (b :: first) :: more

/-- Cutting loses nothing. -/
@[simp]
theorem flatten_cut (bytes : Bytes) : (cut bytes).flatten = bytes := by
  induction bytes with
  | nil => rfl
  | cons b rest ih =>
    unfold cut
    split
    · simp [ih]
    · split <;> simp_all

end Record

end FixEngine
