import Agora.Lib.PythonEq
import Agora.Ledger.Event
import Mathlib.Algebra.Order.Ring.Rat

namespace Agora.Retrieval

open Ledger (NonBlank)
open Marl (Hash sha256Hash)

/-!
# Retrieval values and ports

What hybrid retrieval is asked for, finds and records.  Scores are exact.  A candidate carries the
provenance that its validators have seen; a chunk is a candidate with the scores of its fusion.  The
record of an attempt is checked as a whole when it is built (`RetrievalAttempt.build`).

The search, the reranker and the audit are ports.  Of a request only what `retrieve` reads is kept.
-/

/-! ### Errors of the ports -/

/-- The classes that an `except` clause may tell apart. -/
inductive PortErrorClass where
  | portError
  | transient
  | permanent
  | notFoundObject
  | integrityObject
  | indexMismatch
deriving DecidableEq

structure PortError where
  cls : PortErrorClass
  message : String
  port : String
deriving DecidableEq

/-! ### Candidates -/

/-- The place of a chunk in its document. -/
structure Locator where
  entries : Entries
  unique : (Json.obj entries).uniqueKeys = true
  /-- `_locator_not_empty`. -/
  placed : ∃ start stop : ℤ, entries.lookup (.ofString "char_start") = some (.int start)
    ∧ entries.lookup (.ofString "char_end") = some (.int stop) ∧ 0 ≤ start ∧ start < stop

/-- `not value.strip()`, for a string that may hold surrogates. -/
def isBlankText (value : PyStr) : Bool :=
  value.all fun
    | .scalar c => isSpace c
    | .surrogate _ => false

/-- A string that is not blank. -/
abbrev Provenance := { value : PyStr // isBlankText value = false }

structure HybridCandidate where
  namespaceId : UUID
  chunkId : UUID
  documentId : UUID
  sourceId : UUID
  citation : NonBlank
  text : PyStr
  sourceContentHash : Hash
  contentHash : Hash
  locator : Locator
  chunkerVersion : Provenance
  sourceTimestamp : Datetime
  documentTimestamp : Datetime
  retrievedAt : Datetime
  trustLevel : Provenance
  score : ℚ

structure RetrievedChunk extends HybridCandidate where
  lexicalScore : Option ℚ
  vectorScore : Option ℚ
  fusedScore : ℚ≥0
  rerankScore : Option ℚ
  indexVersion : NonBlank

/-- `a.model_dump(exclude={"rerank_score"}) == b.model_dump(exclude={"rerank_score"})`: the locators
    are compared as Python compares them. -/
structure RetrievedChunk.SameDump (a b : RetrievedChunk) : Prop where
  ids : a.namespaceId = b.namespaceId ∧ a.chunkId = b.chunkId ∧ a.documentId = b.documentId
    ∧ a.sourceId = b.sourceId
  texts : a.citation = b.citation ∧ a.text = b.text ∧ a.sourceContentHash = b.sourceContentHash
    ∧ a.contentHash = b.contentHash
  locator :
    Json.pyEq (Json.obj a.locator.entries).normalize (Json.obj b.locator.entries).normalize = true
  provenance : a.chunkerVersion = b.chunkerVersion ∧ a.sourceTimestamp = b.sourceTimestamp
    ∧ a.documentTimestamp = b.documentTimestamp ∧ a.retrievedAt = b.retrievedAt
    ∧ a.trustLevel = b.trustLevel
  scores : a.score = b.score ∧ a.lexicalScore = b.lexicalScore ∧ a.vectorScore = b.vectorScore
    ∧ a.fusedScore = b.fusedScore
  indexVersion : a.indexVersion = b.indexVersion

instance (a b : RetrievedChunk) : Decidable (a.SameDump b) :=
  decidable_of_iff
    ((a.namespaceId = b.namespaceId ∧ a.chunkId = b.chunkId ∧ a.documentId = b.documentId
        ∧ a.sourceId = b.sourceId)
      ∧ (a.citation = b.citation ∧ a.text = b.text ∧ a.sourceContentHash = b.sourceContentHash
        ∧ a.contentHash = b.contentHash)
      ∧ Json.pyEq (Json.obj a.locator.entries).normalize (Json.obj b.locator.entries).normalize
        = true
      ∧ (a.chunkerVersion = b.chunkerVersion ∧ a.sourceTimestamp = b.sourceTimestamp
        ∧ a.documentTimestamp = b.documentTimestamp ∧ a.retrievedAt = b.retrievedAt
        ∧ a.trustLevel = b.trustLevel)
      ∧ (a.score = b.score ∧ a.lexicalScore = b.lexicalScore ∧ a.vectorScore = b.vectorScore
        ∧ a.fusedScore = b.fusedScore)
      ∧ a.indexVersion = b.indexVersion)
    ⟨fun ⟨hids, htexts, hlocator, hprovenance, hscores, hversion⟩ =>
        ⟨hids, htexts, hlocator, hprovenance, hscores, hversion⟩,
      fun h => ⟨h.ids, h.texts, h.locator, h.provenance, h.scores, h.indexVersion⟩⟩

/-! ### Requests and results -/

inductive PrincipalClass where
  | human
  | agent
deriving DecidableEq

inductive RetrievalDegradation where
  | none
  | lexicalOnly
  | indexMismatch
  | rerankerFailed
deriving DecidableEq

inductive RetrievalOutcome where
  | allowed
  | denied
  | ragFailed
deriving DecidableEq

/-- What is asked for.  `model_copy` replaces the namespaces without a check, so nothing is required
    of them here. -/
structure RetrievalRequest where
  attemptId : UUID
  traceId : UUID
  workspaceId : UUID
  principalClass : PrincipalClass
  principalId : UUID
  namespaceIds : List UUID
  query : NonBlank
  embeddingModel : NonBlank
  embeddingVersion : NonBlank
  indexVersion : NonBlank
  requestedAt : Datetime
  expectedMatch : Bool
  finalK : ℕ

/-- `"sha256:" + sha256(request.query.encode()).hexdigest()`. -/
def RetrievalRequest.queryHash (request : RetrievalRequest) : Hash :=
  sha256Hash (utf8 request.query.text.toList)

structure RetrievalResult where
  queryHash : Hash
  requestedNamespaceIds : List UUID
  searchedNamespaceIds : List UUID
  indexVersion : NonBlank
  embeddingModel : NonBlank
  embeddingVersion : NonBlank
  rerankerVersion : PyStr
  lexicalCount : ℕ
  vectorCount : ℕ
  degradation : RetrievalDegradation
  warnings : List String
  chunks : List RetrievedChunk

/-! ### Attempts -/

/-- The values that an attempt is built of. -/
structure AttemptFields where
  attemptId : UUID
  traceId : UUID
  workspaceId : UUID
  principalClass : PrincipalClass
  principalId : UUID
  requestedAt : Datetime
  completedAt : Datetime
  queryHash : Hash
  requestedNamespaceIds : List UUID
  searchedNamespaceIds : List UUID
  resultChunkIds : List UUID
  resultContentHashes : List String
  indexVersion : NonBlank
  embeddingModel : NonBlank
  embeddingVersion : NonBlank
  rerankerVersion : Option PyStr
  lexicalCount : ℕ
  vectorCount : ℕ
  resultCount : ℕ
  outcome : RetrievalOutcome
  degradation : Option RetrievalDegradation
  warnings : List String

/-- `_valid_sha256`. -/
def validSha256 (value : String) : Bool :=
  value.toList.length = 71 && value.toList.take 7 = ['s', 'h', 'a', '2', '5', '6', ':']
    && (value.toList.drop 7).all isHexLower

/-- `_census_matches_outcome`. -/
def censusMatchesOutcome (a : AttemptFields) : Except PyException Unit :=
  if a.resultCount ≠ a.resultChunkIds.length then
    .error (.valueError "result_count must match result_chunk_ids")
  else if a.resultCount ≠ a.resultContentHashes.length then
    .error (.valueError "result_count must match result_content_hashes")
  else if a.resultContentHashes.any fun value => !validSha256 value then
    .error (.valueError "result_content_hashes must contain sha256 digests")
  else if a.outcome = .denied ∧ (a.searchedNamespaceIds ≠ [] ∨ a.resultChunkIds ≠ []
      ∨ a.resultContentHashes ≠ [] ∨ a.lexicalCount ≠ 0 ∨ a.vectorCount ≠ 0
      ∨ a.degradation ≠ none) then
    .error (.valueError "denied attempts must have an empty result census")
  else if a.outcome = .allowed ∧ a.degradation = none then
    .error (.valueError "allowed attempts require degradation metadata")
  else if a.outcome = .ragFailed
      ∧ (a.resultChunkIds ≠ [] ∨ a.resultContentHashes ≠ [] ∨ a.resultCount ≠ 0) then
    .error (.valueError "failed retrieval attempts cannot contain results")
  else .ok ()

/-- A record of an attempt whose census matches its outcome. -/
structure RetrievalAttempt extends AttemptFields where
  census : censusMatchesOutcome toAttemptFields = .ok ()

/-- `RetrievalAttempt(...)`. -/
def RetrievalAttempt.build (fields : AttemptFields) : Except PyException RetrievalAttempt :=
  match h : censusMatchesOutcome fields with
  | .ok () => .ok ⟨fields, h⟩
  | .error e => .error e

theorem RetrievalAttempt.build_eq {fields : AttemptFields}
    (h : censusMatchesOutcome fields = .ok ()) :
    RetrievalAttempt.build fields = .ok ⟨fields, h⟩ := by
  unfold RetrievalAttempt.build
  split
  · rfl
  · rename_i e herror
    rw [h] at herror
    cases herror

/-- A content hash of a candidate is one that an attempt accepts. -/
theorem validSha256_hash (h : Hash) : validSha256 h.text = true := by
  have hvalid := h.isValid
  unfold Marl.isHash at hvalid
  simp only [Bool.and_eq_true, decide_eq_true_eq, List.length_drop] at hvalid
  unfold validSha256
  simp only [Bool.and_eq_true, decide_eq_true_eq]
  exact ⟨⟨by omega, hvalid.1.1⟩, hvalid.2⟩

/-! ### Ports -/

/-- The answers of the search. -/
structure CandidateSearch where
  authorize : RetrievalRequest → Except PortError (List UUID)
  lexical : RetrievalRequest → ℕ → Except PortError (List HybridCandidate)
  vector : RetrievalRequest → ℕ → Except PortError (List HybridCandidate)

structure Reranker where
  version : PyStr
  rerank : NonBlank → List RetrievedChunk → ℕ → Except PortError (List RetrievedChunk)

end Agora.Retrieval
