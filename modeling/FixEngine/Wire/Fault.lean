import FixEngine.Dictionary.Interpretation

/-!
# Faults of messages

Why a message on the wire is refused, and why a message cannot be written.
-/

namespace FixEngine

/-- Why a record or a message on the wire is refused. -/
inductive DecodingFault where
  /-- A record outside a message. -/
  | missingBeginString (tag : Tag)
  /-- A message began before the one in progress was complete. -/
  | unexpectedBeginString
  | checksumMismatch (declared computed : UInt8)
  /-- A record without a sign between tag and value. -/
  | malformedRecord (text : String)
  | invalidTag (text : String)
  | invalidValue (tag : Tag) (fault : ValueFault)
  /-- A group with more or fewer instances than it declared. -/
  | groupCountMismatch (countTag : Tag) (declared found : Nat)
  deriving DecidableEq, Repr

namespace DecodingFault

def name : DecodingFault → String
  | missingBeginString _ => "MissingBeginString"
  | unexpectedBeginString => "UnexpectedBeginString"
  | checksumMismatch _ _ => "ChecksumMismatch"
  | malformedRecord _ => "MalformedField"
  | invalidTag _ => "InvalidTag"
  | invalidValue _ _ => "InvalidFieldValue"
  | groupCountMismatch _ _ _ => "GroupCountMismatch"

def message : DecodingFault → String
  | missingBeginString tag =>
    s!"missing begin string: message started with tag {tag.toNat}"
  | unexpectedBeginString => "unexpected begin string while a message is in progress"
  | checksumMismatch declared computed =>
    s!"checksum mismatch: expected {declared.toNat}, actual {computed.toNat}"
  | malformedRecord text => s!"malformed field: {text}"
  | invalidTag text => s!"invalid tag format: {text}"
  | invalidValue tag fault => s!"invalid field value for tag {tag.toNat}: {fault.message}"
  | groupCountMismatch countTag declared found =>
    s!"group count mismatch for tag {countTag.toNat}: expected {declared}, found {found}"

end DecodingFault

/-- Why a value cannot be written. -/
inductive WritingFault where
  | empty
  | containsDelimiter
  /-- The tag frames the message and is written by itself. -/
  | framingTag
  /-- The tag belongs in a slot of the header. -/
  | slotTag
  /-- A reason in the words of whoever refuses. -/
  | stated (reason : String)
  deriving DecidableEq, Repr

namespace WritingFault

def message : WritingFault → String
  | empty => "empty value"
  | containsDelimiter => "value contains the SOH delimiter"
  | framingTag => "framing tag is computed by the encoder"
  | slotTag => "header tag has a typed slot"
  | stated reason => reason

end WritingFault

/-- Why a message cannot be written. -/
inductive EncodingFault where
  | missingField (tag : Tag)
  | invalidValue (tag : Tag) (fault : WritingFault)
  deriving DecidableEq, Repr

namespace EncodingFault

def name : EncodingFault → String
  | missingField _ => "MissingRequiredField"
  | invalidValue _ _ => "InvalidFieldValue"

def message : EncodingFault → String
  | missingField tag => s!"missing required field: tag {tag.toNat}"
  | invalidValue tag fault => s!"invalid field value for tag {tag.toNat}: {fault.message}"

end EncodingFault

end FixEngine
