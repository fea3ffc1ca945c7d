import Agora.Lib.Stateful
import Agora.Retrieval.Fusion

namespace Agora.Retrieval

open Stateful

/-!
# The retriever and its audit records

`retrieve` asks the ports in turn and appends a record of the attempt before it returns or raises.
Every exit goes through `audited`, so that what is to be shown of an exit is that its record is one
that `RetrievalAttempt.build` accepts (`audited_eq`) and what the record says.
-/

/-! ### The retriever -/

/-- What `retrieve` raises. -/
inductive RetrievalError where
  | ragFailed (message : String) (cause : Option PortError)
  | port (e : PortError)
  | invalid (e : PyException)

/-- The keyword arguments of `_attempt` that have a default. -/
structure AttemptDetails where
  result : Option RetrievalResult := none
  searchedNamespaceIds : List UUID := []
  lexicalCount : ℕ := 0
  vectorCount : ℕ := 0
  warnings : List String := []

/-- The values that `_attempt` builds a record of. -/
def attemptFields (now : Datetime) (request : RetrievalRequest) (outcome : RetrievalOutcome)
    (rerankerVersion : Option PyStr) (details : AttemptDetails) : AttemptFields where
  attemptId := request.attemptId
  traceId := request.traceId
  workspaceId := request.workspaceId
  principalClass := request.principalClass
  principalId := request.principalId
  requestedAt := request.requestedAt
  completedAt := now
  queryHash := request.queryHash
  requestedNamespaceIds := request.namespaceIds
  searchedNamespaceIds := details.result.elim details.searchedNamespaceIds (·.searchedNamespaceIds)
  resultChunkIds := details.result.elim [] fun result => result.chunks.map (·.chunkId)
  resultContentHashes := details.result.elim [] fun result => result.chunks.map (·.contentHash.text)
  indexVersion := request.indexVersion
  embeddingModel := request.embeddingModel
  embeddingVersion := request.embeddingVersion
  rerankerVersion
  lexicalCount := details.result.elim details.lexicalCount (·.lexicalCount)
  vectorCount := details.result.elim details.vectorCount (·.vectorCount)
  resultCount := details.result.elim 0 (·.chunks.length)
  outcome
  degradation := details.result.map (·.degradation)
  warnings :=
    if details.warnings ≠ [] then details.warnings else details.result.elim [] (·.warnings)

/-- The records that have been appended. -/
abbrev Retrieving (α : Type) := Stateful (List RetrievalAttempt) RetrievalError α

/-- `await self._audit.append(_attempt(...))`, and then the end of the call. -/
def audited {α : Type} (fields : AttemptFields) (outcome : Except RetrievalError α) :
    Retrieving α :=
  match RetrievalAttempt.build fields with
  | .error e => raise (.invalid e)
  | .ok attempt => do
    write (· ++ [attempt])
    lift outcome

/-- The vector arm, the degradation that it leaves and the warnings about it. -/
def vectorArm (answer : Except PortError (List HybridCandidate)) :
    Except PortError (List HybridCandidate × RetrievalDegradation × List String) :=
  match answer with
  | .ok vector => .ok (vector, .none, [])
  | .error e =>
    match e.cls with
    | .transient =>
      .ok ([], .lexicalOnly, ["vector retrieval unavailable; lexical candidates retained"])
    | .indexMismatch =>
      .ok ([], .indexMismatch, ["vector index identity mismatch; lexical candidates retained"])
    | _ => .error e

/-- `request.model_copy(update={"namespace_ids": ...})`. -/
def scopedRequest (request : RetrievalRequest) (namespaces : List UUID) : RetrievalRequest :=
  { request with namespaceIds := namespaces }

/-- The reranking, checked. -/
def rerankChecked (reranker : Reranker) (request : RetrievalRequest) (fused : List RetrievedChunk) :
    Except PortError (List RetrievedChunk) := do
  let reranked ← reranker.rerank request.query fused request.finalK
  validateRerankerOutput reranked fused request.finalK
  pure reranked

/-- The result of the arms. -/
def resultOf (reranker : Reranker) (request : RetrievalRequest) (namespaces : List UUID)
    (lexical vector : List HybridCandidate) (degradation : RetrievalDegradation)
    (warnings : List String) : RetrievalResult :=
  let fused := reciprocalRankFusion lexical vector request.indexVersion
  let (selected, degradation, warnings) :=
    match rerankChecked reranker request fused with
    | .ok reranked => (reranked, degradation, warnings)
    | .error _ => (fused.take request.finalK, RetrievalDegradation.rerankerFailed,
        warnings ++ ["reranker failed; deterministic fused order retained"])
  { queryHash := request.queryHash
    requestedNamespaceIds := request.namespaceIds
    searchedNamespaceIds := namespaces
    indexVersion := request.indexVersion
    embeddingModel := request.embeddingModel
    embeddingVersion := request.embeddingVersion
    rerankerVersion := reranker.version
    lexicalCount := lexical.length
    vectorCount := vector.length
    degradation
    warnings
    chunks := selected }

/-- `HybridRetriever.retrieve`, ending at the time `now`. -/
def retrieve (search : CandidateSearch) (reranker : Reranker) (now : Datetime)
    (request : RetrievalRequest) : Retrieving RetrievalResult :=
  match search.authorize request with
  | .error e =>
    audited (attemptFields now request .ragFailed none
        { warnings := ["RAG_FAILED: namespace authorization did not complete"] })
      (.error (.ragFailed "retrieval authorization did not complete" (some e)))
  | .ok [] =>
    audited (attemptFields now request .denied none {})
      (.error (.port ⟨.permanent, "no requested namespace is authorized for retrieval",
        "candidate_search"⟩))
  | .ok (first :: more) =>
    let namespaces := first :: more
    let armK := request.finalK * 3
    match search.lexical (scopedRequest request namespaces) armK with
    | .error e =>
      audited (attemptFields now request .ragFailed none
          { searchedNamespaceIds := namespaces
            warnings := ["RAG_FAILED: lexical retrieval did not complete"] })
        (.error (.ragFailed "retrieval did not complete" (some e)))
    | .ok lexical =>
      match vectorArm (search.vector (scopedRequest request namespaces) armK) with
      | .error e =>
        audited (attemptFields now request .ragFailed none
            { searchedNamespaceIds := namespaces
              lexicalCount := lexical.length
              warnings := ["RAG_FAILED: vector retrieval did not complete"] })
          (.error (.ragFailed "retrieval did not complete" (some e)))
      | .ok (vector, degradation, warnings) =>
        let result := resultOf reranker request namespaces lexical vector degradation warnings
        if request.expectedMatch = true ∧ result.chunks = [] then
          audited (attemptFields now request .ragFailed (some reranker.version)
              { result := some result
                warnings := result.warnings
                  ++ ["RAG_FAILED: expected match returned no candidates"] })
            (.error (.ragFailed "retrieval expected a match but returned no candidates" none))
        else
          audited (attemptFields now request .allowed (some reranker.version)
              { result := some result })
            (.ok result)

/-! ### Which records are accepted -/

section Audited

variable {α : Type} {fields : AttemptFields} {outcome : Except RetrievalError α}
  {now : Datetime} {request : RetrievalRequest} {version : Option PyStr} {details : AttemptDetails}

/-- A record that is accepted is appended, and the call ends as it says. -/
theorem audited_eq (h : censusMatchesOutcome fields = .ok ()) (log : List RetrievalAttempt) :
    audited fields outcome log = (outcome, log ++ [⟨fields, h⟩]) := by
  unfold audited
  rw [RetrievalAttempt.build_eq h]
  rfl

/-- A failure that has no chunks is accepted. -/
theorem census_ragFailed (now : Datetime) (request : RetrievalRequest) (version : Option PyStr)
    (h : ∀ result ∈ details.result, result.chunks = []) :
    censusMatchesOutcome (attemptFields now request .ragFailed version details) = .ok () := by
  cases hresult : details.result with
  | none => simp [censusMatchesOutcome, attemptFields, hresult]
  | some result => simp [censusMatchesOutcome, attemptFields, hresult, h result hresult]

theorem census_denied :
    censusMatchesOutcome (attemptFields now request .denied version {}) = .ok () := by
  simp [censusMatchesOutcome, attemptFields]

/-- A result is accepted: the content hashes of candidates are digests. -/
theorem census_allowed {result : RetrievalResult} :
    censusMatchesOutcome (attemptFields now request .allowed version { result := some result })
      = .ok () := by
  have hvalid : (result.chunks.map (·.contentHash.text)).any (fun value => !validSha256 value)
      = false := by
    rw [List.any_eq_false]
    intro value hvalue
    obtain ⟨chunk, -, rfl⟩ := List.mem_map.mp hvalue
    simp [validSha256_hash]
  simp [censusMatchesOutcome, attemptFields, -List.any_map, hvalid]

end Audited

/-! ### What the records say -/

section Truthful

variable (search : CandidateSearch) (reranker : Reranker) (request : RetrievalRequest)

/-- How many of the vector arm and the reranker have failed, after the lexical arm has not. -/
def failures (namespaces : List UUID) (lexical : List HybridCandidate) : ℕ :=
  let answer := search.vector (scopedRequest request namespaces) (request.finalK * 3)
  let fused := reciprocalRankFusion lexical (answer.toOption.getD []) request.indexVersion
  (if answer.isOk then 0 else 1) + if (rerankChecked reranker request fused).isOk then 0 else 1

/-- The record is about the request. -/
structure Identifies (attempt : RetrievalAttempt) : Prop where
  ids : attempt.attemptId = request.attemptId ∧ attempt.traceId = request.traceId
    ∧ attempt.workspaceId = request.workspaceId
  principal : attempt.principalClass = request.principalClass
    ∧ attempt.principalId = request.principalId
  query : attempt.queryHash = request.queryHash ∧ attempt.requestedAt = request.requestedAt
    ∧ attempt.requestedNamespaceIds = request.namespaceIds

/-- The record says what has been returned. -/
structure Carries (attempt : RetrievalAttempt) (result : RetrievalResult) : Prop where
  namespaces : attempt.requestedNamespaceIds = result.requestedNamespaceIds
    ∧ attempt.searchedNamespaceIds = result.searchedNamespaceIds
  chunks : attempt.resultChunkIds = result.chunks.map (·.chunkId)
    ∧ attempt.resultContentHashes = result.chunks.map (·.contentHash.text)
  counts : attempt.lexicalCount = result.lexicalCount ∧ attempt.vectorCount = result.vectorCount
    ∧ attempt.resultCount = result.chunks.length
  degradation : attempt.degradation = some result.degradation
  warnings : attempt.warnings = result.warnings

/-- The record is true of how the retrieval has ended. -/
structure Truthful (outcome : Except RetrievalError RetrievalResult) (attempt : RetrievalAttempt) :
    Prop where
  identifies : Identifies request attempt
  allowed : attempt.outcome = .allowed ↔ ∃ result, outcome = .ok result
  denied : attempt.outcome = .denied ↔ search.authorize request = .ok []
  failed : attempt.outcome = .ragFailed
    ↔ (¬ ∃ result, outcome = .ok result) ∧ search.authorize request ≠ .ok []
  carries : ∀ result, outcome = .ok result → Carries attempt result
  empty : (¬ ∃ result, outcome = .ok result) →
    attempt.resultChunkIds = [] ∧ attempt.resultContentHashes = [] ∧ attempt.resultCount = 0
  /-- A degradation is recorded where the arms have been fused, and each failure has its warning.  A
      missing match has one more. -/
  degradation : ∀ d, attempt.degradation = some d → ∃ namespaces lexical,
    search.authorize request = .ok namespaces
      ∧ search.lexical (scopedRequest request namespaces) (request.finalK * 3) = .ok lexical
      ∧ (d = .none ↔ failures search reranker request namespaces lexical = 0)
      ∧ attempt.warnings.length = failures search reranker request namespaces lexical
        + if attempt.outcome = .allowed then 0 else 1

end Truthful

section Exits

variable {search : CandidateSearch} {reranker : Reranker} {request : RetrievalRequest}
  {now : Datetime}

theorem identifies_attemptFields {outcome : RetrievalOutcome} {version : Option PyStr}
    {details : AttemptDetails}
    (h : censusMatchesOutcome (attemptFields now request outcome version details) = .ok ()) :
    Identifies request ⟨attemptFields now request outcome version details, h⟩ where
  ids := ⟨rfl, rfl, rfl⟩
  principal := ⟨rfl, rfl⟩
  query := ⟨rfl, rfl, rfl⟩

/-- An exit before the arms are fused. -/
theorem truthful_early {e : RetrievalError} {details : AttemptDetails}
    (hauthorize : search.authorize request ≠ .ok []) (hresult : details.result = none)
    (h : censusMatchesOutcome (attemptFields now request .ragFailed none details) = .ok ()) :
    Truthful search reranker request (.error e)
      ⟨attemptFields now request .ragFailed none details, h⟩ where
  identifies := identifies_attemptFields h
  allowed := by simp [attemptFields]
  denied := by simpa [attemptFields] using hauthorize
  failed := by simpa [attemptFields] using hauthorize
  carries := nofun
  empty := by simp [attemptFields, hresult]
  degradation := by simp [attemptFields, hresult]

theorem truthful_denied {e : RetrievalError} (hauthorize : search.authorize request = .ok [])
    (h : censusMatchesOutcome (attemptFields now request .denied none {}) = .ok ()) :
    Truthful search reranker request (.error e) ⟨attemptFields now request .denied none {}, h⟩ where
  identifies := identifies_attemptFields h
  allowed := by simp [attemptFields]
  denied := by simpa [attemptFields] using hauthorize
  failed := by simpa [attemptFields] using hauthorize
  carries := nofun
  empty := by simp [attemptFields]
  degradation := by simp [attemptFields]

/-- How the vector arm ends when the retrieval goes on: a failure has its degradation and its
    warning. -/
theorem vectorArm_ok {answer : Except PortError (List HybridCandidate)}
    {vector : List HybridCandidate} {degradation : RetrievalDegradation} {warnings : List String}
    (h : vectorArm answer = .ok (vector, degradation, warnings)) :
    answer.toOption.getD [] = vector ∧ (degradation = .none ↔ warnings.length = 0)
      ∧ warnings.length = if answer.isOk then 0 else 1 := by
  unfold vectorArm at h
  split at h
  · obtain ⟨rfl, rfl, rfl⟩ := by simpa using h
    simp [Except.toOption, Except.isOk, Except.toBool]
  · split at h
    · obtain ⟨rfl, rfl, rfl⟩ := by simpa using h
      simp [Except.toOption, Except.isOk, Except.toBool]
    · obtain ⟨rfl, rfl, rfl⟩ := by simpa using h
      simp [Except.toOption, Except.isOk, Except.toBool]
    · cases h

/-- And how the reranking ends. -/
theorem resultOf_degradation (reranker : Reranker) (request : RetrievalRequest)
    (namespaces : List UUID) (lexical vector : List HybridCandidate)
    (degradation : RetrievalDegradation) (warnings : List String) :
    ((resultOf reranker request namespaces lexical vector degradation warnings).degradation = .none
        ↔ degradation = .none ∧ (rerankChecked reranker request
          (reciprocalRankFusion lexical vector request.indexVersion)).isOk)
      ∧ (resultOf reranker request namespaces lexical vector degradation warnings).warnings.length
        = warnings.length + if (rerankChecked reranker request
          (reciprocalRankFusion lexical vector request.indexVersion)).isOk then 0 else 1 := by
  unfold resultOf
  simp only
  cases rerankChecked reranker request
      (reciprocalRankFusion lexical vector request.indexVersion) with
  | ok reranked => simp [Except.isOk, Except.toBool]
  | error e => simp [Except.isOk, Except.toBool]

/-- What a result says of the failures. -/
theorem resultOf_failures (reranker : Reranker) {namespaces : List UUID}
    (lexical : List HybridCandidate) {vector : List HybridCandidate}
    {degradation : RetrievalDegradation} {warnings : List String}
    (h : vectorArm (search.vector (scopedRequest request namespaces) (request.finalK * 3))
      = .ok (vector, degradation, warnings)) :
    ((resultOf reranker request namespaces lexical vector degradation warnings).degradation = .none
        ↔ failures search reranker request namespaces lexical = 0)
      ∧ (resultOf reranker request namespaces lexical vector degradation warnings).warnings.length
        = failures search reranker request namespaces lexical := by
  obtain ⟨hhits, hnone, hlength⟩ := vectorArm_ok h
  obtain ⟨hdegradation, hwarnings⟩ :=
    resultOf_degradation reranker request namespaces lexical vector degradation warnings
  unfold failures
  simp only [hhits, ← hlength]
  refine ⟨?_, hwarnings⟩
  rw [hdegradation, hnone]
  split <;> simp_all

/-- The exit where a match was expected and the exit with a result. -/
theorem truthful_fused (reranker : Reranker) (now : Datetime) {first : UUID} {more : List UUID}
    {lexical vector : List HybridCandidate}
    {degradation : RetrievalDegradation} {warnings : List String}
    (hauthorize : search.authorize request = .ok (first :: more))
    (hlexical : search.lexical (scopedRequest request (first :: more)) (request.finalK * 3)
      = .ok lexical)
    (hvector : vectorArm
      (search.vector (scopedRequest request (first :: more)) (request.finalK * 3))
        = .ok (vector, degradation, warnings)) :
    let result := resultOf reranker request (first :: more) lexical vector degradation warnings
    (∀ e : RetrievalError, ∀ warning : String, result.chunks = [] →
      ∀ h, Truthful search reranker request (.error e)
        ⟨attemptFields now request .ragFailed (some reranker.version)
          { result := some result, warnings := result.warnings ++ [warning] }, h⟩)
      ∧ ∀ h, Truthful search reranker request (.ok result)
        ⟨attemptFields now request .allowed (some reranker.version) { result := some result },
          h⟩ := by
  intro result
  obtain ⟨hnone, hlength⟩ := resultOf_failures reranker lexical hvector
  constructor
  · intro e warning hempty h
    exact
      { identifies := identifies_attemptFields h
        allowed := by simp [attemptFields]
        denied := by simp [attemptFields, hauthorize]
        failed := by simp [attemptFields, hauthorize]
        carries := nofun
        empty := by simp [attemptFields, hempty]
        degradation := by
          intro d hd
          obtain rfl := Option.some.inj hd
          refine ⟨first :: more, lexical, hauthorize, hlexical, hnone, ?_⟩
          simp [attemptFields, ← hlength, result] }
  · intro h
    exact
      { identifies := identifies_attemptFields h
        allowed := by simp [attemptFields]
        denied := by simp [attemptFields, hauthorize]
        failed := by simp [attemptFields, hauthorize]
        carries := by
          intro result' hresult
          obtain rfl := Except.ok.inj hresult
          exact ⟨⟨rfl, rfl⟩, ⟨rfl, rfl⟩, ⟨rfl, rfl, rfl⟩, rfl, rfl⟩
        empty := fun hnot => absurd ⟨result, rfl⟩ hnot
        degradation := by
          intro d hd
          obtain rfl := Option.some.inj hd
          refine ⟨first :: more, lexical, hauthorize, hlexical, hnone, ?_⟩
          simp [attemptFields, ← hlength, result] }

/-- A call that appends one record, which is true of how it ends. -/
def EndsAudited (search : CandidateSearch) (reranker : Reranker) (request : RetrievalRequest)
    (call : Retrieving RetrievalResult) : Prop :=
  ∀ log, ∃ attempt, (call log).2 = log ++ [attempt]
    ∧ Truthful search reranker request (call log).1 attempt

theorem endsAudited {fields : AttemptFields} {outcome : Except RetrievalError RetrievalResult}
    (h : censusMatchesOutcome fields = .ok ())
    (htrue : Truthful search reranker request outcome ⟨fields, h⟩) :
    EndsAudited search reranker request (audited fields outcome) := by
  intro log
  rw [audited_eq h]
  exact ⟨_, rfl, htrue⟩

theorem endsAudited_early {e : RetrievalError} {details : AttemptDetails}
    (hauthorize : search.authorize request ≠ .ok []) (hresult : details.result = none) :
    EndsAudited search reranker request
      (audited (attemptFields now request .ragFailed none details) (.error e)) := by
  have hcensus :
      censusMatchesOutcome (attemptFields now request .ragFailed none details) = .ok () := by
    apply census_ragFailed
    simp [hresult]
  exact endsAudited hcensus (truthful_early hauthorize hresult hcensus)

theorem endsAudited_retrieve : EndsAudited search reranker request
    (retrieve search reranker now request) := by
  unfold retrieve
  split
  · rename_i e hauthorize
    exact endsAudited_early (by simp [hauthorize]) rfl
  · rename_i hauthorize
    exact endsAudited census_denied (truthful_denied hauthorize census_denied)
  · rename_i first more hauthorize
    have hsome : search.authorize request ≠ .ok [] := by simp [hauthorize]
    simp only
    split
    · exact endsAudited_early hsome rfl
    · rename_i lexical hlexical
      split
      · exact endsAudited_early hsome rfl
      · rename_i vector degradation warnings hvector
        obtain ⟨hmissing, hfound⟩ := truthful_fused reranker now hauthorize hlexical hvector
        split
        · rename_i hexpected
          refine endsAudited (census_ragFailed _ _ _ ?_) (hmissing _ _ hexpected.2 _)
          simpa using hexpected.2
        · exact endsAudited census_allowed (hfound census_allowed)

/-- **Every retrieval is audited.**  However the ports answer, one record is appended, and it is
    true of how the retrieval has ended. -/
theorem retrieve_audited (search : CandidateSearch) (reranker : Reranker) (now : Datetime)
    (request : RetrievalRequest) (log : List RetrievalAttempt) :
    ∃ attempt, (retrieve search reranker now request log).2 = log ++ [attempt]
      ∧ Truthful search reranker request (retrieve search reranker now request log).1 attempt :=
  endsAudited_retrieve log

end Exits

end Agora.Retrieval
