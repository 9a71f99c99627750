import BoundedMemory.RawMemory
import BoundedMemory.Scalar.Text
import BoundedMemory.Session
import BoundedMemory.Proofs.Failure
import BoundedMemory.Proofs.Flattening
import BoundedMemory.Proofs.Secrecy
import BoundedMemory.Proofs.Variants
import BoundedMemory.Proofs.Accounting
import BoundedMemory.Proofs.Changes.Ending
import BoundedMemory.Proofs.Changes.Rewriting
import BoundedMemory.Proofs.Changes.Making
import BoundedMemory.Proofs.Changes.Running
import BoundedMemory.Proofs.Anchoring
import BoundedMemory.Proofs.Finality
import BoundedMemory.Proofs.Mappings
import BoundedMemory.Proofs.Serving
import BoundedMemory.Proofs.Settling
import BoundedMemory.Proofs.Ordering
import BoundedMemory.Proofs.Streaming
import BoundedMemory.Proofs.Founding
import BoundedMemory.Proofs.HandleBounds
import BoundedMemory.Proofs.Steady
import BoundedMemory.Proofs.Safety
import BoundedMemory.Proofs.CursorBounds
import BoundedMemory.Proofs.RecordLayout
import BoundedMemory.Proofs.Records
import BoundedMemory.Proofs.AttachmentCalls
import BoundedMemory.Proofs.AttachmentLife
import BoundedMemory.Proofs.SegmentKeys
import BoundedMemory.Proofs.SegmentSources
import BoundedMemory.Proofs.SegmentNaming
import BoundedMemory.Proofs.SegmentEffects
import BoundedMemory.Proofs.SegmentRuns
import BoundedMemory.Proofs.SegmentHandles
import BoundedMemory.Proofs.SegmentBytes
import BoundedMemory.Proofs.SharedSegments
import BoundedMemory.Proofs.Outcomes
import BoundedMemory.Proofs.StreamCopies
import BoundedMemory.Proofs.RootEffects
import BoundedMemory.Proofs.RootRequests
import BoundedMemory.Proofs.Ownership
import BoundedMemory.Proofs.Independence
import BoundedMemory.Proofs.Resting
import BoundedMemory.Proofs.Commuting
import BoundedMemory.Proofs.CheckOrder
import BoundedMemory.Proofs.BulkAccess
import BoundedMemory.Proofs.CursorAccess
import BoundedMemory.Proofs.SavedStates
import BoundedMemory.Proofs.Padding
import BoundedMemory.Proofs.Seeking
import BoundedMemory.Proofs.StreamReads
import BoundedMemory.Proofs.StreamWrites
import BoundedMemory.Proofs.ScalarCodec
import BoundedMemory.Proofs.ElementCopies
import BoundedMemory.Proofs.PageBuffers
import BoundedMemory.Proofs.SegmentOpenings
