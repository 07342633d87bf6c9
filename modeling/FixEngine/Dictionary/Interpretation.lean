import FixEngine.Dictionary.DataType
import FixEngine.Message.Value

/-!
# Interpretation of values

The bytes of a value are read according to the type of its tag.
-/

namespace FixEngine

/-- Why the bytes of a field are refused. -/
inductive ValueFault where
  | empty
  | notUtf8
  | notInteger (fault : IntegerFault)
  | notUnsigned
  | notDecimal (fault : NumericFault)
  | notSingleCharacter
  | notFlag
  | notTimestamp
  | notTimeOnly
  | notDate
  | negativeCount
  | notChecksum
  /-- A reason in the words of whoever refuses. -/
  | stated (reason : String)
  deriving DecidableEq, Repr

namespace ValueFault

def message : ValueFault → String
  | empty => "empty value"
  | notUtf8 => "value is not valid UTF-8"
  | notInteger fault => s!"expected integer: {fault.message}"
  | notUnsigned => "expected unsigned 32-bit integer"
  | notDecimal fault => fault.message
  | notSingleCharacter => "expected single character"
  | notFlag => "expected 'Y' or 'N'"
  | notTimestamp => "expected YYYYMMDD-HH:MM:SS[.sss]"
  | notTimeOnly => "expected HH:MM:SS[.sss]"
  | notDate => "expected YYYYMMDD"
  | negativeCount => "negative group count"
  | notChecksum => "invalid checksum format"
  | stated reason => reason

end ValueFault

namespace Value

/-- A reading that failed gets its fault. -/
def orFault {α : Type} (fault : ValueFault) : Option α → Except ValueFault α
  | some a => .ok a
  | none => .error fault

def readText (bytes : Bytes) : Except ValueFault String :=
  orFault .notUtf8 (Utf8.decode? bytes)

def readInteger (bytes : Bytes) : Except ValueFault Int64 := do
  let _ ← readText bytes
  (Numeral.readInt64 bytes).mapError .notInteger

def readUnsigned (bytes : Bytes) : Except ValueFault UInt32 := do
  let n := (← readInteger bytes).toInt
  if 0 ≤ n ∧ n < 4294967296 then .ok (UInt32.ofNat n.toNat) else .error .notUnsigned

/-- Reads the number of instances of a group. -/
def readCount (bytes : Bytes) : Except ValueFault Nat := do
  let n := (← readInteger bytes).toInt
  if 0 ≤ n then .ok n.toNat else .error .negativeCount

/-- Reads exactly one character. -/
def readChar (bytes : Bytes) : Except ValueFault Char := do
  match (← readText bytes).toList with
  | [c] => .ok c
  | _ => .error .notSingleCharacter

/-- Reads `Y` or `N`. -/
def readFlag (bytes : Bytes) : Except ValueFault Bool :=
  if bytes = [Ascii.yes] then .ok true
  else if bytes = [Ascii.no] then .ok false
  else .error .notFlag

def read (type : DataType) (bytes : Bytes) : Except ValueFault Value :=
  match type with
  | .int | .length | .seqNum | .numInGroup | .tagNum | .dayOfMonth =>
    (readInteger bytes).map .integer
  | .float | .qty | .price | .priceOffset | .amt | .percentage =>
    ((Decimal.parse bytes).map .decimal).mapError .notDecimal
  | .char => (readChar bytes).map .char
  | .boolean => (readFlag bytes).map .flag
  | .utcTimestamp => orFault .notTimestamp ((Timestamp.parse? bytes).map .timestamp)
  | .utcTimeOnly => orFault .notTimeOnly ((TimeOnly.parse? bytes).map .time)
  | .utcDateOnly => orFault .notDate ((Date.parse? bytes).map .date)
  | .data => .ok (.text (Utf8.decodeLossy bytes))
  | .string | .multipleValueString | .currency | .exchange | .country | .monthYear
  | .localMktDate => (readText bytes).map .text

end Value

end FixEngine
