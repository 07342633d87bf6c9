import FixEngine.Session.Phase
import FixEngine.Wire.Stream

/-!
# Faults of the whole stack

One type for the faults of every layer, for callers that drive them all.
-/

namespace FixEngine

/-- A fault of some layer. -/
inductive Fault where
  | decoding (fault : DecodingFault)
  | encoding (fault : EncodingFault)
  | session (fault : SessionFault)
  | numeric (fault : NumericFault)
  /-- A failure of the medium, in its own words. -/
  | medium (text : String)
  deriving DecidableEq, Repr

namespace Fault

def name : Fault → String
  | decoding fault => fault.name
  | encoding fault => fault.name
  | session fault => fault.name
  | numeric fault => fault.name
  | medium _ => "Io"

/-- The text of a fault without its layer. -/
def detail : Fault → String
  | decoding fault => fault.message
  | encoding fault => fault.message
  | session fault => fault.message
  | numeric fault => fault.message
  | medium text => s!"io error: {text}"

def message : Fault → String
  | decoding fault => s!"decode error: {fault.message}"
  | encoding fault => s!"encode error: {fault.message}"
  | session fault => s!"session error: {fault.message}"
  | numeric fault => s!"numeric error: {fault.message}"
  | medium text => s!"io error: {text}"

end Fault

end FixEngine
