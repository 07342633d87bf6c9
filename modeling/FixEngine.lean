import FixEngine.Calendar.Timestamp
import FixEngine.Document.Forms
import FixEngine.Engine.Channel
import FixEngine.Engine.Connection
import FixEngine.Engine.Setup
import FixEngine.Fault
import FixEngine.Number.Approximate
import FixEngine.Proofs.Engine.Admission
import FixEngine.Proofs.Engine.Agreement
import FixEngine.Proofs.Engine.Directories
import FixEngine.Proofs.Engine.Expectation
import FixEngine.Proofs.Engine.Encodability
import FixEngine.Proofs.Engine.Forwarding
import FixEngine.Proofs.Engine.LogonNumbers
import FixEngine.Proofs.Engine.Ordering
import FixEngine.Proofs.Engine.Recovery
import FixEngine.Proofs.Engine.Repeated
import FixEngine.Proofs.Engine.Written
import FixEngine.Proofs.Wire.Boundaries
import FixEngine.Proofs.Wire.Chunks
import FixEngine.Proofs.Wire.Corruption
import FixEngine.Proofs.Wire.Ending
import FixEngine.Proofs.Wire.Flattening
import FixEngine.Proofs.Wire.Grammar
import FixEngine.Proofs.Wire.Pieces
import FixEngine.Proofs.Wire.ReadingBack
import FixEngine.Proofs.Wire.RoundTrip
import FixEngine.Proofs.Wire.Segment
import FixEngine.Proofs.Calendar.Reading
import FixEngine.Proofs.Calendar.Timestamp
import FixEngine.Proofs.Calendar.Truncation
import FixEngine.Proofs.Dictionary.Stability
import FixEngine.Proofs.Number.Decimal
import FixEngine.Proofs.Wire.Apart
import FixEngine.Proofs.Wire.Resending
import FixEngine.Proofs.Wire.Retention
import FixEngine.Proofs.Wire.WireForm
import FixEngine.Proofs.Calendar.WireForm
