import QdrantRag.Verify.AccessLog
import QdrantRag.Verify.Adapters
import QdrantRag.Verify.Agreement
import QdrantRag.Verify.Attempts
import QdrantRag.Verify.Bounds
import QdrantRag.Verify.Commit
import QdrantRag.Verify.Contexts
import QdrantRag.Verify.Creation
import QdrantRag.Verify.Dedup
import QdrantRag.Verify.Deletions
import QdrantRag.Verify.Disclosure
import QdrantRag.Verify.Drift
import QdrantRag.Verify.Embedding
import QdrantRag.Verify.Early
import QdrantRag.Verify.Encodings
import QdrantRag.Verify.Failures
import QdrantRag.Verify.Grouping
import QdrantRag.Verify.Hashes
import QdrantRag.Verify.Identifiers
import QdrantRag.Verify.Lifecycle
import QdrantRag.Verify.Names
import QdrantRag.Verify.Orphans
import QdrantRag.Verify.Outage
import QdrantRag.Verify.Ownership
import QdrantRag.Verify.Payloads
import QdrantRag.Verify.Provision
import QdrantRag.Verify.Readiness
import QdrantRag.Verify.Recall
import QdrantRag.Verify.Recording
import QdrantRag.Verify.Refinement
import QdrantRag.Verify.Removal
import QdrantRag.Verify.Replay
import QdrantRag.Verify.Reranking
import QdrantRag.Verify.Resubmission
import QdrantRag.Verify.Serial
import QdrantRag.Verify.Transports
import QdrantRag.Verify.Truncation
import QdrantRag.Verify.Uploads
