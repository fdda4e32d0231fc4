import AmqpBlob.Main
import AmqpBlob.Proofs.Position
import AmqpBlob.Proofs.Wire.Bytes
import AmqpBlob.Proofs.Wire.Scan
import AmqpBlob.Proofs.Wire.Scalar
import AmqpBlob.Proofs.Wire.Tree
import AmqpBlob.Proofs.Wire.Traversal
import AmqpBlob.Proofs.Conformance
import AmqpBlob.Proofs.ObjectForm
import AmqpBlob.Proofs.RoundTrip
import AmqpBlob.Proofs.SectionForm
import AmqpBlob.Proofs.SectionRoundTrip
import AmqpBlob.Proofs.Echo
import AmqpBlob.Proofs.Wire.Part
import AmqpBlob.Proofs.Embedding
import AmqpBlob.Proofs.Composition
import AmqpBlob.Proofs.Reach
import AmqpBlob.Proofs.Count
import AmqpBlob.Proofs.Arrangement
import AmqpBlob.Proofs.Declaration
import AmqpBlob.Proofs.Relaxation
import AmqpBlob.Proofs.Truncation
import AmqpBlob.Proofs.SameTree
import AmqpBlob.Proofs.Wire.Formed
import AmqpBlob.Proofs.SameData
import AmqpBlob.Proofs.ArrayForm
import AmqpBlob.Proofs.Restricted
import AmqpBlob.Proofs.Wire.Guarded
import AmqpBlob.Proofs.Machine
import AmqpBlob.Proofs.InStep
import AmqpBlob.Proofs.Descent
import AmqpBlob.Proofs.Run
import AmqpBlob.Proofs.Termination
import AmqpBlob.Proofs.Peek
import AmqpBlob.Proofs.SelfDescription
import AmqpBlob.Proofs.Growth
import AmqpBlob.Proofs.Brackets
import AmqpBlob.Proofs.Spelling
import AmqpBlob.Proofs.Comparison
import AmqpBlob.Proofs.NameFaults
import AmqpBlob.Proofs.Levels
import AmqpBlob.Proofs.Wire.Width
import AmqpBlob.Proofs.Index
import AmqpBlob.Proofs.Calls
import AmqpBlob.Proofs.Described
import AmqpBlob.Proofs.Extents
import AmqpBlob.Proofs.Inline
import AmqpBlob.Proofs.Lines
