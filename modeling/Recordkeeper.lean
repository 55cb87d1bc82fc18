import Recordkeeper.Description.Failure
import Recordkeeper.Description.Schema
import Recordkeeper.Document.Repository
import Recordkeeper.Entity.Shape
import Recordkeeper.Faults
import Recordkeeper.KeyValue.Repository
import Recordkeeper.Proofs.Aggregation
import Recordkeeper.Proofs.Arrangement
import Recordkeeper.Proofs.Batches
import Recordkeeper.Proofs.Connectives
import Recordkeeper.Proofs.Counting
import Recordkeeper.Proofs.Creation
import Recordkeeper.Proofs.Deletion
import Recordkeeper.Proofs.Document.Absence
import Recordkeeper.Proofs.Document.AllOrNothing
import Recordkeeper.Proofs.Document.Degradations
import Recordkeeper.Proofs.Document.Extent
import Recordkeeper.Proofs.Document.GroupRows
import Recordkeeper.Proofs.Document.Identity
import Recordkeeper.Proofs.Document.Keys
import Recordkeeper.Proofs.Document.Patterns
import Recordkeeper.Proofs.Document.Serial
import Recordkeeper.Proofs.Document.SessionTable
import Recordkeeper.Proofs.Document.Sums
import Recordkeeper.Proofs.Document.UniqueIds
import Recordkeeper.Proofs.IntegerTests
import Recordkeeper.Proofs.KeyValue.Bounded
import Recordkeeper.Proofs.KeyValue.Distinct
import Recordkeeper.Proofs.KeyValue.Expiry
import Recordkeeper.Proofs.KeyValue.Identity
import Recordkeeper.Proofs.KeyValue.Interruption
import Recordkeeper.Proofs.KeyValue.Isolation
import Recordkeeper.Proofs.KeyValue.Patterns
import Recordkeeper.Proofs.KeyValue.Sorting
import Recordkeeper.Proofs.Overlay
import Recordkeeper.Proofs.Relational.Batch
import Recordkeeper.Proofs.Relational.EmptyLists
import Recordkeeper.Proofs.Relational.Independence
import Recordkeeper.Proofs.Relational.Patterns
import Recordkeeper.Proofs.Relational.Placeholders
import Recordkeeper.Proofs.Relational.Rejection
import Recordkeeper.Proofs.Relational.RoundTrip
import Recordkeeper.Proofs.Repetition
import Recordkeeper.Proofs.Settlement
import Recordkeeper.Proofs.WritingBack
import Recordkeeper.Relational.Repository
import Recordkeeper.Retry
import Recordkeeper.Text.Identifier
