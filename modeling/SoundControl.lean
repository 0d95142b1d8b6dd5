import SoundControl.TypeSpec.Descriptor
import SoundControl.Session.Serving
import SoundControl.Proofs.Address.Compilation
import SoundControl.Proofs.Hub.Lifecycle
import SoundControl.Proofs.Hub.MergedStream
import SoundControl.Proofs.Table.Bundled
import SoundControl.Proofs.Table.Registry
import SoundControl.Proofs.Hub.Detachment
import SoundControl.Proofs.Address.Containment
import SoundControl.Proofs.Number.Encoding
import SoundControl.Proofs.Text.Utf8
import SoundControl.Proofs.Address.Printable
import SoundControl.Proofs.TypeSpec.FixedPoint
import SoundControl.Proofs.Wire.RoundTrip
import SoundControl.Proofs.Wire.ExactDomain
import SoundControl.Proofs.Server.Feeding
import SoundControl.Proofs.Server.Arrival
import SoundControl.Proofs.Server.Shutdown
import SoundControl.Proofs.TypeSpec.Guessing
import SoundControl.Proofs.Address.Parsing
import SoundControl.Proofs.Address.Literal
import SoundControl.Proofs.Table.Fanout
import SoundControl.Proofs.Hub.Attention
import SoundControl.Proofs.Address.Overlap
import SoundControl.Proofs.Address.Recovery
import SoundControl.Proofs.Time.Conversion
import SoundControl.Proofs.TypeSpec.Concatenation
import SoundControl.Proofs.TypeSpec.Category
import SoundControl.Proofs.Number.Scaling
import SoundControl.Proofs.Time.Offset
import SoundControl.Proofs.Time.Comparison
import SoundControl.Proofs.TypeSpec.Flattening
import SoundControl.Proofs.TypeSpec.WrittenInteger
import SoundControl.Proofs.Address.Faults
