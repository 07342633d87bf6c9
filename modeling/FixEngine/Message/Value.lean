import FixEngine.Calendar.Timestamp
import FixEngine.Message.Tag
import FixEngine.Number.Decimal

/-!
# Field values

A field is a tag with a value, and a value is one of eight kinds.  Each value
has one canonical form on the wire, and its text is that form read as UTF-8.
-/

namespace FixEngine

/-- The value of a field. -/
inductive Value where
  /-- Free text, which also stands for every type without a kind of its own. -/
  | text (value : String)
  | char (value : Char)
  /-- A flag, written `Y` or `N`. -/
  | flag (value : Bool)
  | integer (value : Int64)
  | decimal (value : Decimal)
  | timestamp (value : Timestamp)
  | date (value : Date)
  | time (value : TimeOnly)
  deriving DecidableEq, Repr

namespace Value

def toBytes : Value → Bytes
  | text value => Utf8.encode value
  | char value => String.utf8EncodeChar value
  | flag value => [if value then Ascii.yes else Ascii.no]
  | integer value => Numeral.ofInt value.toInt
  | decimal value => value.toBytes
  | timestamp value => value.toBytes
  | date value => value.toBytes
  | time value => value.toBytes

def shown (value : Value) : String :=
  Utf8.decodeLossy value.toBytes

def kind : Value → String
  | text _ => "String"
  | char _ => "Char"
  | flag _ => "Bool"
  | integer _ => "Int"
  | decimal _ => "Float"
  | timestamp _ => "UtcTimestamp"
  | date _ => "UtcDateOnly"
  | time _ => "UtcTimeOnly"

def text? : Value → Option String
  | text value => some value
  | _ => none

def char? : Value → Option Char
  | char value => some value
  | _ => none

def flag? : Value → Option Bool
  | flag value => some value
  | _ => none

def integer? : Value → Option Int64
  | integer value => some value
  | _ => none

def decimal? : Value → Option Decimal
  | decimal value => some value
  | _ => none

def timestamp? : Value → Option Timestamp
  | timestamp value => some value
  | _ => none

end Value

/-- A tag with its value. -/
structure Field where
  tag : Tag
  value : Value
  deriving DecidableEq, Repr

/-- A tag with the bytes of its value. -/
structure Record where
  tag : Tag
  value : Bytes
  deriving DecidableEq, Repr

namespace Record

/-- The form `tag=value` followed by the delimiter. -/
def toBytes (r : Record) : Bytes :=
  Numeral.ofNat r.tag.toNat ++ Ascii.equals :: (r.value ++ [Ascii.soh])

end Record

namespace Field

/-- The record of a field in canonical form. -/
def record (f : Field) : Record := ⟨f.tag, f.value.toBytes⟩

/-- The form `tag=value` for readers. -/
def shown (f : Field) : String := s!"{f.tag.toNat}={f.value.shown}"

end Field

/-- A text with ASCII letters in lower case. -/
def asciiLower (s : String) : String :=
  String.ofList (s.toList.map Char.toLower)

/-- Reads a flag as applications may spell it: `Y`, `N`, `true` or `false`, in
upper or lower case.  On the wire only `Y` and `N` are flags. -/
def lenientFlag? (s : String) : Option Bool :=
  let lower := asciiLower s
  if lower = "y" ∨ lower = "true" then some true
  else if lower = "n" ∨ lower = "false" then some false
  else none

end FixEngine
