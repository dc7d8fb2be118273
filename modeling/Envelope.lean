import Envelope.Session
import Envelope.Settings
import Envelope.Json.Parser
import Envelope.Json.Printer
import Envelope.Record.Handling
import Envelope.Proofs.KeyCourse
import Envelope.Proofs.ValueCourse
import Envelope.Proofs.Carriage
import Envelope.Proofs.Faithful
import Envelope.Proofs.Conversation
import Envelope.Proofs.Timeline
import Envelope.Proofs.Growth
import Envelope.Proofs.RoundTrip
import Envelope.Proofs.Service
import Envelope.Proofs.Writer
import Envelope.Proofs.Success
import Envelope.Proofs.Race
import Envelope.Proofs.Serial
import Envelope.Proofs.Footprint
import Envelope.Proofs.Evolution
import Envelope.Proofs.Rotation
import Envelope.Proofs.Overflow
import Envelope.Proofs.Usable
import Envelope.Proofs.Audit
import Envelope.Proofs.Lifetime
import Envelope.Proofs.Reading
import Envelope.Proofs.ReadOnly
import Envelope.Proofs.FrameVersion
import Envelope.Proofs.Deletion
import Envelope.Proofs.Configuration
import Envelope.Proofs.Clients
import Envelope.Proofs.Equality
import Envelope.Proofs.Coupling
import Envelope.Proofs.Twins
import Envelope.Proofs.Discretion
import Envelope.Proofs.Expiry
import Envelope.Proofs.Fallback
import Envelope.Proofs.Binding
import Envelope.Proofs.Resolution
import Envelope.Proofs.Sealing
import Envelope.Proofs.Wrapping
import Envelope.Proofs.Canonical
import Envelope.Proofs.Presentation
import Envelope.Proofs.FrameFormat
import Envelope.Proofs.JsonText
import Envelope.Proofs.Columns
import Envelope.Proofs.RecordForm
import Envelope.Proofs.Startup
import Envelope.Proofs.Failures
import Envelope.Proofs.RawKey
