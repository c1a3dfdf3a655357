import DocMapping.Context
import DocMapping.MongoQuery
import DocMapping.Proofs.Bson.InPlace
import DocMapping.Proofs.Change.Detection
import DocMapping.Proofs.Change.Uniqueness
import DocMapping.Proofs.Change.Update
import DocMapping.Proofs.Codec.Alternate
import DocMapping.Proofs.Codec.Decimals
import DocMapping.Proofs.Codec.Doubles
import DocMapping.Proofs.Codec.Narrowing
import DocMapping.Proofs.Codec.NaturalReading
import DocMapping.Proofs.Codec.Readable
import DocMapping.Proofs.Codec.Times
import DocMapping.Proofs.Codec.WholeNumbers
import DocMapping.Proofs.Evaluation.Arithmetic
import DocMapping.Proofs.Evaluation.Comparison
import DocMapping.Proofs.Execution.Terminals
import DocMapping.Proofs.Filter.Verdict
import DocMapping.Proofs.Materialization.Required
import DocMapping.Proofs.Model.Ownership
import DocMapping.Proofs.Model.Paths
import DocMapping.Proofs.MongoQuery.Reading
import DocMapping.Proofs.MongoQuery.Sorting
import DocMapping.Proofs.Planning.Fallback
import DocMapping.Proofs.Planning.Normal
import DocMapping.Proofs.Planning.Operators
import DocMapping.Proofs.Planning.Representations
import DocMapping.Proofs.Planning.SelfContained
import DocMapping.Proofs.Query.Projection
import DocMapping.Proofs.Query.Stability
import DocMapping.Proofs.Store.Identifiers
import DocMapping.Proofs.Store.Serializability
import DocMapping.Proofs.UnitOfWork.Batches
import DocMapping.Proofs.UnitOfWork.Restoration
import DocMapping.Proofs.Value.Coherence
import DocMapping.Transport.Memory
import DocMapping.Transport.Script
import DocMapping.Value.Edit
