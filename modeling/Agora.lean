import Agora.Marl.Precedence
import Agora.Marl.StoreAgreement
import Agora.Api.Idempotency
import Agora.Artifacts.Versions
import Agora.Audit.Alarm
import Agora.Audit.FirstFailure
import Agora.Audit.Participants
import Agora.Audit.RevisionHistory
import Agora.Common.Allocation
import Agora.Consensus.Bounds
import Agora.Consensus.Classification
import Agora.Consensus.Conflict
import Agora.Consensus.Dominance
import Agora.Consensus.Monotone
import Agora.Consensus.Permutation
import Agora.Consensus.Strength
import Agora.Consensus.Trace
import Agora.Coordinator.Exhaustion
import Agora.Audit.AccessLog
import Agora.Coordinator.Retrieval
import Agora.EventBus.Delivery
import Agora.Formalization.Literals
import Agora.Formalization.Rendering
import Agora.Formalization.Status
import Agora.Impact.Exactness
import Agora.Impact.Paging
import Agora.Impact.Retraction
import Agora.Ingestion.Agreement
import Agora.Ingestion.Headers
import Agora.Ingestion.Identities
import Agora.Ingestion.Locators
import Agora.Ingestion.Retraction
import Agora.Ingestion.Windows
import Agora.Ledger.Tamper
import Agora.Lib.BreadthFirst
import Agora.Lib.VersionChain
import Agora.Manifest.AgentPins
import Agora.Mcp.AtMostOnce
import Agora.Memory.Lifecycle
import Agora.Observability.Redaction
import Agora.Realtime.EventStream
import Agora.Realtime.Gapless
import Agora.Reasoning.CanonicalJson
import Agora.Reasoning.Decimals
import Agora.Replay.Agreement
import Agora.Replay.Integrity
import Agora.Retrieval.Retriever
import Agora.Session.Consistency
import Agora.Symbolic.Soundness
import Agora.Turns.Dispatch
import Agora.Turns.Revision
