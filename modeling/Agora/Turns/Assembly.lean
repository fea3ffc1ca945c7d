import Agora.Artifacts.Versions
import Agora.Turns.Context

namespace Agora.Turns

open Artifacts (ReasoningArtifact ReasoningState LifecycleStatus)
open Coordinator (AgentStatus)
open Ledger (NonBlank)
open Marl (sha256Hash)

/-!
# Assembling a context

The assembler reads a session, its membership in the round, the registry, the artifacts and a retriever, and
checks all that it reads.  A context it returns holds only what the turn may see (`assemble_authorized`),
and a first assessment is the same whatever the other artifacts are (`assemble_sealed`).
-/

/-! ### Requests and ports -/

structure ReasoningContextRequest where
  workspaceId : UUID
  sessionId : UUID
  agentDefinitionId : UUID
  turnId : UUID
  correlationId : UUID
  causationId : UUID
  round : ℕ
  phase : ReasoningPhase
  canonicalizerVersion : String
  visibleArtifactIds : List UUID := []
  retrievalRequest : Option RetrievalRequest := none
  budgetRemainingTokens : ℕ
  budgetRemainingUsd : Coordinator.Decimal
  timeoutS : WithTop ℚ
  positive_round : 1 ≤ round
  positive_tokens : 0 < budgetRemainingTokens
  positive_timeout : 0 < timeoutS

/-- The fields of a `DraftSessionBinding` that the assembler reads. -/
structure SessionBinding where
  id : UUID
  workspaceId : UUID
  problemStatement : NonBlank
  objectives : List UUID
  constraints : List UUID

/-- What the assembler reads besides the artifacts. -/
structure ContextPorts where
  session : UUID → UUID → Py (Option SessionBinding)
  membership : UUID → UUID → ℕ → Py (List RegisteredDefinition)
  definition : UUID → Py (Option RegisteredDefinition)
  retrieve : RetrievalRequest → Py RetrievalResult

/-- `PermanentPortError(message, port="reasoning_context")`. -/
def permanentPortError (message : String) : PyException := ⟨.other, message⟩

/-- Go on if the condition holds. -/
def require (p : Prop) [Decidable p] (message : String) : Py Unit :=
  if p then .ok () else .error (permanentPortError message)

theorem require_eq_ok {p : Prop} [Decidable p] {message : String} {u : Unit} :
    require p message = .ok u ↔ p := by
  unfold require
  split_ifs with hp
  · exact iff_of_true rfl hp
  · exact iff_of_false (fun h => by cases h) hp

section Assembly

variable (floatText : ℤ → ℤ → List Char) (ports : ContextPorts) (s : ReasoningState)
  (request : ReasoningContextRequest)

/-! ### Artifacts -/

/-- An active artifact of the session of the request. -/
def InSession (a : ReasoningArtifact) : Prop :=
  a.workspaceId = request.workspaceId ∧ a.sessionId = request.sessionId ∧ a.status = .active

instance (a : ReasoningArtifact) : Decidable (InSession request a) := by
  unfold InSession
  infer_instance

/-- One turn of the loops over the bindings: the payload of an active artifact of the kind. -/
def loadBound (kind : Impact.ArtifactKind) (message : String) (artifactId : UUID) : Py String :=
  match s.artifact? request.workspaceId request.sessionId artifactId with
  | none => .error (permanentPortError message)
  | some a => do
    require (a.kind = kind ∧ InSession request a) message
    jsonDumps floatText a.payload.modelDump

/-- `_load_objectives`. -/
def loadObjectives (bindings : List UUID) : Py (List String) :=
  bindings.mapM (loadBound floatText s request .objective "bound objective is unavailable or ineligible")

/-- `_load_constraints`. -/
def loadConstraints (bindings : List UUID) : Py (List String) :=
  bindings.mapM (loadBound floatText s request .constraint "bound constraint is unavailable or ineligible")

def loadVisibleArtifact (artifactId : UUID) : Py ContextArtifact :=
  match s.artifact? request.workspaceId request.sessionId artifactId with
  | none => .error (permanentPortError "visible artifact is unavailable or ineligible")
  | some a => do
    require (InSession request a ∧ a.round ≤ request.round) "visible artifact is unavailable or ineligible"
    artifactSnapshot floatText a

/-- `_load_visible_artifacts`. -/
def loadVisibleArtifacts : Py (List ContextArtifact) :=
  request.visibleArtifactIds.mapM (loadVisibleArtifact floatText s request)

/-! ### Retrieval -/

/-- `_validate_retrieval_request`. -/
def validateRetrievalRequest (definition : RegisteredDefinition) (retrieval : RetrievalRequest) : Py Unit :=
  let expected : List (NamespaceSubjectKind × UUID) :=
    [(.workspace, request.workspaceId), (.agentDefinition, definition.id), (.session, request.sessionId)]
  require (retrieval.workspaceId = request.workspaceId ∧ retrieval.principalClass = .agent
      ∧ retrieval.principalId = definition.id
      ∧ (∀ subject ∈ retrieval.subjects, subject ∈ expected)
      ∧ (∀ subject ∈ expected, subject ∈ retrieval.subjects)
      ∧ (∀ n ∈ retrieval.namespaceIds, n ∈ definition.knowledgeNs)
      ∧ retrieval.traceId = request.correlationId)
    "retrieval request is not scoped to the pinned session agent"

/-- `_validate_retrieval_result`. -/
def validateRetrievalResult (definition : RegisteredDefinition) (retrieval : RetrievalRequest)
    (result : RetrievalResult) : Py Unit :=
  require (result.queryHash = sha256Hash (utf8 retrieval.query.text.toList)
      ∧ result.requestedNamespaceIds = retrieval.namespaceIds
      ∧ result.searchedNamespaceIds.Nodup
      ∧ (∀ n ∈ result.searchedNamespaceIds, n ∈ retrieval.namespaceIds)
      ∧ (∀ n ∈ result.searchedNamespaceIds, n ∈ definition.knowledgeNs)
      ∧ result.indexVersion = retrieval.indexVersion.text
      ∧ result.embeddingModel = retrieval.embeddingModel.text
      ∧ result.embeddingVersion = retrieval.embeddingVersion.text
      ∧ (result.chunks.map (·.chunkId)).Nodup
      ∧ (∀ c ∈ result.chunks, c.namespaceId ∈ result.searchedNamespaceIds)
      ∧ ∀ c ∈ result.chunks, c.indexVersion = result.indexVersion)
    "retrieval result does not match the authorized request"

def authorizedChunk (c : RetrievedChunk) : Py AuthorizedKnowledgeChunk := do
  let locatorJson ← jsonDumps floatText (.obj c.locator)
  pure { c.toChunkFields with locatorJson }

/-- `_authorized_knowledge`. -/
def authorizedKnowledge (result : RetrievalResult) : Py AuthorizedKnowledge := do
  let chunks ← result.chunks.mapM (authorizedChunk floatText)
  if hreranker : result.rerankerVersion ≠ "" then
    pure {
      queryHash := result.queryHash
      requestedNamespaceIds := result.requestedNamespaceIds
      searchedNamespaceIds := result.searchedNamespaceIds
      indexVersion := result.indexVersion
      embeddingModel := result.embeddingModel
      embeddingVersion := result.embeddingVersion
      rerankerVersion := result.rerankerVersion
      lexicalCount := result.lexicalCount
      vectorCount := result.vectorCount
      degradation := result.degradation.value
      warnings := result.warnings
      chunks
      reranker_named := hreranker }
  else .error (.valueError "String should have at least 1 character")

/-- `_retrieve`. -/
def retrieve (definition : RegisteredDefinition) : Py (Option AuthorizedKnowledge) :=
  match request.retrievalRequest with
  | none => do
    require (definition.knowledgeNs = []) "pinned agent knowledge requires an explicit retrieval request"
    pure none
  | some retrieval => do
    validateRetrievalRequest request definition retrieval
    let result ← ports.retrieve retrieval
    validateRetrievalResult definition retrieval result
    let knowledge ← authorizedKnowledge floatText result
    pure (some knowledge)

/-! ### The context -/

def contextText : String → Py NonBlank := nonBlank "reasoning context text must not be blank"

/-- `sealed_assessment`. -/
def ReasoningContextRequest.sealedAssessment : Bool := request.round = 1 && request.phase = .assess

/-- `ReasoningContext(...)`. -/
def reasoningContext (session : SessionBinding) (pinned : PinnedAgentDefinition)
    (objectives constraints : List String) (visibleArtifacts : List ContextArtifact)
    (retrieval : Option AuthorizedKnowledge) : Py ReasoningContext := do
  let canonicalizerVersion ← contextText request.canonicalizerVersion
  let objectiveSummaries ← objectives.mapM contextText
  let constraintSummaries ← constraints.mapM contextText
  if hunique : (visibleArtifacts.map (·.id)).Nodup then
    if hsealed : request.round = 1 ∧ request.phase = .assess →
        request.sealedAssessment = true ∧ visibleArtifacts.isEmpty = true then
      pure {
        workspaceId := request.workspaceId
        sessionId := request.sessionId
        agentDefinition := pinned
        canonicalizerVersion
        turnId := request.turnId
        correlationId := request.correlationId
        causationId := request.causationId
        round := request.round
        phase := request.phase
        problemStatement := session.problemStatement
        objectiveSummaries, constraintSummaries, visibleArtifacts, retrieval
        isSealed := request.sealedAssessment
        budgetRemainingTokens := request.budgetRemainingTokens
        budgetRemainingUsd := request.budgetRemainingUsd
        timeoutS := request.timeoutS
        positive_round := request.positive_round
        positive_tokens := request.positive_tokens
        positive_timeout := request.positive_timeout
        unique_artifacts := hunique
        sealed_assessment := fun h => ⟨(hsealed h).1, List.isEmpty_iff.mp (hsealed h).2⟩ }
    else .error (.valueError "round 1 ASSESS must be sealed from other agents")
  else .error (.valueError "visible artifact IDs must exactly match unique hydrated artifacts")

/-- The session and the definition of the agent, as far as the request may use them. -/
def pinnedAgent : Py (SessionBinding × RegisteredDefinition) := do
  let session? ← ports.session request.workspaceId request.sessionId
  match session?.filter fun b => b.workspaceId = request.workspaceId ∧ b.id = request.sessionId with
  | none => .error (permanentPortError "bound reasoning session does not exist")
  | some session =>
    let members ← ports.membership request.workspaceId request.sessionId request.round
    match members.find? (·.id = request.agentDefinitionId) with
    | none => .error (permanentPortError "agent definition is not pinned to the reasoning session")
    | some effective =>
      let definition? ← ports.definition request.agentDefinitionId
      match definition?.filter fun d => d.same effective ∧ d.workspaceId = request.workspaceId with
      | none =>
        .error (permanentPortError "pinned agent definition identity or version does not resolve")
      | some definition =>
        require (definition.status ≠ .draft ∧ definition.status ≠ .withdrawn)
          "pinned agent definition is not runnable"
        pure (session, definition)

/-- `ReasoningContextAssembler.assemble`. -/
def assemble : Py ReasoningContext := do
  let (session, definition) ← pinnedAgent ports request
  require (request.sealedAssessment = true → request.visibleArtifactIds = [])
    "round 1 ASSESS cannot include prior agent artifacts"
  require request.visibleArtifactIds.Nodup "visible artifact IDs must be unique"
  let objectives ← loadObjectives floatText s request session.objectives
  let constraints ← loadConstraints floatText s request session.constraints
  let visibleArtifacts ← loadVisibleArtifacts floatText s request
  let retrieval ← retrieve floatText ports request definition
  let pinned ← pinnedDefinition definition
  reasoningContext request session pinned objectives constraints visibleArtifacts retrieval

/-! ### Batches -/

/-- The loop of `_validate_batch`. -/
def validateBatchFrom (first : ReasoningContext) (turnIds agentIds : List UUID) :
    List ReasoningContext → Py Unit
  | [] => .ok ()
  | context :: rest =>
    if (context.workspaceId, context.sessionId, context.round, context.phase)
        ≠ (first.workspaceId, first.sessionId, first.round, first.phase) then
      .error (.valueError "dispatch contexts must belong to one session round and phase")
    else if context.turnId ∈ turnIds ∨ context.agentDefinitionId ∈ agentIds then
      .error (.valueError "dispatch logical turns and pinned agents must be unique")
    else if context.round = 1 ∧ context.phase = .assess
        ∧ (context.isSealed = false ∨ context.visibleArtifacts.isEmpty = false) then
      .error (.valueError "round 1 ASSESS dispatch must remain sealed")
    else
      validateBatchFrom first (context.turnId :: turnIds) (context.agentDefinitionId :: agentIds) rest

/-- `_validate_batch`. -/
def validateBatch : List ReasoningContext → Py Unit
  | [] => .error (.valueError "dispatch requires at least one logical turn")
  | first :: rest => validateBatchFrom first [] [] (first :: rest)

/-! ### What a context shows -/

/-- An artifact that the turn may see. -/
def Visible (a : ContextArtifact) : Prop :=
  ∃ artifact ∈ s.artifacts, artifactSnapshot floatText artifact = .ok a ∧ a.id = artifact.id
    ∧ InSession request artifact ∧ artifact.round ≤ request.round
    ∧ artifact.id ∈ request.visibleArtifactIds

/-- A summary of an artifact that the session is bound to. -/
def Bound (kind : Impact.ArtifactKind) (bindings : List UUID) (summary : String) : Prop :=
  ∃ artifact ∈ s.artifacts, artifact.kind = kind ∧ InSession request artifact ∧ artifact.id ∈ bindings
    ∧ jsonDumps floatText artifact.payload.modelDump = .ok summary

/-- Everything in the context is authorized: the agent is a member of the round, the artifacts may be seen,
    and what was retrieved is in the namespaces that were searched, requested and pinned. -/
structure Authorized (context : ReasoningContext) : Prop where
  member : ∃ members, ports.membership request.workspaceId request.sessionId request.round = .ok members
    ∧ ∃ effective ∈ members, effective.id = request.agentDefinitionId ∧ ∃ definition : RegisteredDefinition,
      ports.definition request.agentDefinitionId = .ok (some definition) ∧ definition.same effective = true
        ∧ definition.status ≠ .draft ∧ definition.status ≠ .withdrawn
        ∧ pinnedDefinition definition = .ok context.agentDefinition
  identified : context.agentDefinitionId = request.agentDefinitionId
  listed : context.visibleArtifactIds = request.visibleArtifactIds
  artifacts : ∀ a ∈ context.visibleArtifacts, Visible floatText s request a
  summaries : ∃ session, ports.session request.workspaceId request.sessionId = .ok (some session)
    ∧ (∀ summary ∈ context.objectiveSummaries,
        Bound floatText s request .objective session.objectives summary.text)
    ∧ ∀ summary ∈ context.constraintSummaries,
        Bound floatText s request .constraint session.constraints summary.text
  knowledge : ∀ k ∈ context.retrieval, ∀ chunk ∈ k.chunks, chunk.namespaceId ∈ k.searchedNamespaceIds
    ∧ (∃ retrieval ∈ request.retrievalRequest, chunk.namespaceId ∈ retrieval.namespaceIds)
    ∧ chunk.namespaceId ∈ context.agentDefinition.knowledgeNamespaceIds

variable {floatText ports s request}

theorem artifact?_eq_some {w n id : UUID} {a : ReasoningArtifact} (h : s.artifact? w n id = some a) :
    a ∈ s.artifacts ∧ a.id = id := by
  have hproperties := List.find?_some h
  simp only [decide_eq_true_eq] at hproperties
  exact ⟨List.mem_of_find?_eq_some h, hproperties.2.2⟩

theorem validText_ok {valid : String → Bool} {message text : String} {t : Marl.Text valid}
    (h : validText valid message text = .ok t) : t.text = text := by
  unfold validText at h
  split_ifs at h
  rw [← Except.ok.inj h]

/-- A pinned definition has the identity and the namespaces of its definition. -/
theorem pinnedDefinition_ok {definition : RegisteredDefinition} {pinned : PinnedAgentDefinition}
    (h : pinnedDefinition definition = .ok pinned) :
    pinned.id = definition.id ∧ pinned.knowledgeNamespaceIds = definition.knowledgeNs := by
  unfold pinnedDefinition at h
  split_ifs at h
  simp only [Except.bind_eq_ok] at h
  obtain ⟨_, -, _, -, _, -, _, -, _, -, _, -, _, -, _, -, hpinned⟩ := h
  rw [← Except.ok.inj hpinned]
  exact ⟨rfl, rfl⟩

theorem loadBound_ok {kind : Impact.ArtifactKind} {message summary : String} {artifactId : UUID}
    (h : loadBound floatText s request kind message artifactId = .ok summary) :
    Bound floatText s request kind [artifactId] summary := by
  unfold loadBound at h
  cases hfound : s.artifact? request.workspaceId request.sessionId artifactId with
  | none =>
    rw [hfound] at h
    cases h
  | some a =>
    rw [hfound] at h
    obtain ⟨_, hrequired, hdump⟩ := Except.bind_eq_ok.mp h
    obtain ⟨hkind, hsession⟩ := require_eq_ok.mp hrequired
    obtain ⟨hmem, hid⟩ := artifact?_eq_some hfound
    exact ⟨a, hmem, hkind, hsession, by simp [hid], hdump⟩

/-- Every summary is of an artifact that is bound. -/
theorem bound_of_mapM {kind : Impact.ArtifactKind} {message : String} {bindings : List UUID}
    {summaries : List String} {texts : List NonBlank}
    (hload : bindings.mapM (loadBound floatText s request kind message) = .ok summaries)
    (htexts : summaries.mapM contextText = .ok texts) :
    ∀ summary ∈ texts, Bound floatText s request kind bindings summary.text := by
  intro summary hsummary
  obtain ⟨text, htext, hread⟩ := Except.exists_of_mem_mapM htexts hsummary
  obtain ⟨artifactId, hbound, hloaded⟩ := Except.exists_of_mem_mapM hload htext
  obtain ⟨a, hmem, hkind, hsession, hid, hdump⟩ := loadBound_ok hloaded
  have hsame : summary.text = text :=
    @validText_ok (fun s => !isBlank s) "reasoning context text must not be blank" text summary hread
  rw [hsame]
  refine ⟨a, hmem, hkind, hsession, ?_, hdump⟩
  rw [List.mem_singleton.mp hid]
  exact hbound

theorem loadVisibleArtifact_ok {artifactId : UUID} {a : ContextArtifact}
    (h : loadVisibleArtifact floatText s request artifactId = .ok a) :
    a.id = artifactId ∧ ∃ artifact ∈ s.artifacts, artifactSnapshot floatText artifact = .ok a
      ∧ a.id = artifact.id ∧ InSession request artifact ∧ artifact.round ≤ request.round := by
  unfold loadVisibleArtifact at h
  cases hfound : s.artifact? request.workspaceId request.sessionId artifactId with
  | none =>
    rw [hfound] at h
    cases h
  | some artifact =>
    rw [hfound] at h
    obtain ⟨_, hrequired, hsnapshot⟩ := Except.bind_eq_ok.mp h
    obtain ⟨hsession, hround⟩ := require_eq_ok.mp hrequired
    obtain ⟨hmem, hid⟩ := artifact?_eq_some hfound
    have hsame : a.id = artifact.id := by
      obtain ⟨json, -, heq⟩ := Except.bind_eq_ok.mp hsnapshot
      rw [← Except.ok.inj heq]
    exact ⟨hsame.trans hid, artifact, hmem, hsnapshot, hsame, hsession, hround⟩

theorem retrieve_ok {definition : RegisteredDefinition} {knowledge : Option AuthorizedKnowledge}
    (h : retrieve floatText ports request definition = .ok knowledge) :
    ∀ k ∈ knowledge, ∀ chunk ∈ k.chunks, chunk.namespaceId ∈ k.searchedNamespaceIds
      ∧ (∃ retrieval ∈ request.retrievalRequest, chunk.namespaceId ∈ retrieval.namespaceIds)
      ∧ chunk.namespaceId ∈ definition.knowledgeNs := by
  unfold retrieve at h
  cases hrequest : request.retrievalRequest with
  | none =>
    rw [hrequest] at h
    obtain ⟨_, -, hnone⟩ := Except.bind_eq_ok.mp h
    rw [← Except.ok.inj hnone]
    intro k hk
    cases hk
  | some retrieval =>
    rw [hrequest] at h
    simp only [Except.bind_eq_ok] at h
    obtain ⟨_, -, result, -, _, hvalid, k, hauthorized, hsome⟩ := h
    obtain ⟨-, -, -, hrequested, hpinned, -, -, -, -, hsearched, -⟩ := require_eq_ok.mp hvalid
    rw [← Except.ok.inj hsome]
    intro k' hk chunk hchunk
    obtain rfl := Option.some.inj hk
    -- Every chunk that is shown is a chunk of the result.
    obtain ⟨chunks, hchunks, hbuilt⟩ := Except.bind_eq_ok.mp hauthorized
    split_ifs at hbuilt
    obtain rfl := Except.ok.inj hbuilt
    obtain ⟨c, hc, hread⟩ := Except.exists_of_mem_mapM hchunks hchunk
    obtain ⟨_, -, heq⟩ := Except.bind_eq_ok.mp hread
    rw [← Except.ok.inj heq]
    have hns := hsearched c hc
    exact ⟨hns, ⟨retrieval, rfl, hrequested _ hns⟩, hpinned _ hns⟩

theorem pinnedAgent_ok {session : SessionBinding} {definition : RegisteredDefinition}
    (h : pinnedAgent ports request = .ok (session, definition)) :
    ports.session request.workspaceId request.sessionId = .ok (some session)
      ∧ definition.id = request.agentDefinitionId
      ∧ ∃ members, ports.membership request.workspaceId request.sessionId request.round = .ok members
        ∧ ∃ effective ∈ members, effective.id = request.agentDefinitionId
          ∧ ports.definition request.agentDefinitionId = .ok (some definition)
          ∧ definition.same effective = true ∧ definition.status ≠ .draft
          ∧ definition.status ≠ .withdrawn := by
  unfold pinnedAgent at h
  obtain ⟨session?, hsession, h⟩ := Except.bind_eq_ok.mp h
  cases hfilter : session?.filter fun b => b.workspaceId = request.workspaceId ∧ b.id = request.sessionId with
  | none =>
    rw [hfilter] at h
    cases h
  | some found =>
    rw [hfilter] at h
    obtain ⟨members, hmembers, h⟩ := Except.bind_eq_ok.mp h
    cases heffective : members.find? (·.id = request.agentDefinitionId) with
    | none =>
      rw [heffective] at h
      cases h
    | some effective =>
      rw [heffective] at h
      obtain ⟨definition?, hdefinition, h⟩ := Except.bind_eq_ok.mp h
      cases hresolved : definition?.filter fun d => d.same effective ∧ d.workspaceId = request.workspaceId with
      | none =>
        rw [hresolved] at h
        cases h
      | some resolved =>
        rw [hresolved] at h
        obtain ⟨_, hrunnable, heq⟩ := Except.bind_eq_ok.mp h
        obtain ⟨rfl, rfl⟩ := Prod.mk.inj (Except.ok.inj heq)
        obtain ⟨hdraft, hwithdrawn⟩ := require_eq_ok.mp hrunnable
        obtain ⟨rfl, -⟩ := Option.filter_eq_some_iff.mp hfilter
        obtain ⟨rfl, hsame⟩ := Option.filter_eq_some_iff.mp hresolved
        simp only [decide_eq_true_eq] at hsame
        have hid : effective.id = request.agentDefinitionId := by simpa using List.find?_some heffective
        have hsameId : resolved.id = effective.id := by
          have hall := hsame.1
          simp only [RegisteredDefinition.same, Bool.and_eq_true, decide_eq_true_eq] at hall
          exact congrArg Coordinator.AgentDefinition.id hall.1.1.1.1.1.1.1.1.1.1.1.1.1.1.1.1
        exact ⟨hsession, hsameId.trans hid, members, hmembers, effective,
          List.mem_of_find?_eq_some heffective, hid, hdefinition, hsame.1, hdraft, hwithdrawn⟩

/-- **Authorization.**  A context that is returned shows only what the turn may see. -/
theorem assemble_authorized {context : ReasoningContext}
    (h : assemble floatText ports s request = .ok context) :
    Authorized floatText ports s request context := by
  unfold assemble at h
  obtain ⟨⟨session, definition⟩, hagent, h⟩ := Except.bind_eq_ok.mp h
  simp only [Except.bind_eq_ok] at h
  obtain ⟨_, -, _, -, objectives, hobjectives, constraints, hconstraints, artifacts, hartifacts, knowledge,
    hknowledge, pinned, hpinned, hcontext⟩ := h
  obtain ⟨hsession, hid, members, hmembers, effective, hmem, heffective, hdefinition, hsame, hdraft,
    hwithdrawn⟩ := pinnedAgent_ok hagent
  obtain ⟨hpinnedId, hnamespaces⟩ := pinnedDefinition_ok hpinned
  unfold reasoningContext at hcontext
  simp only [Except.bind_eq_ok] at hcontext
  obtain ⟨_, -, objectiveTexts, hobjectiveTexts, constraintTexts, hconstraintTexts, hbuilt⟩ := hcontext
  split_ifs at hbuilt
  obtain rfl := Except.ok.inj hbuilt
  have hlisted : artifacts.map (·.id) = request.visibleArtifactIds := by
    rw [Except.map_eq_of_mapM (k := id) (fun x y hxy => (loadVisibleArtifact_ok hxy).1) hartifacts,
      List.map_id]
  refine ⟨⟨members, hmembers, effective, hmem, heffective, definition, hdefinition, hsame, hdraft, hwithdrawn,
    hpinned⟩, hpinnedId.trans hid, hlisted, fun a ha => ?_, ⟨session, hsession, ?_, ?_⟩,
    fun k hk chunk hchunk => ?_⟩
  · obtain ⟨artifactId, hrequested, hloaded⟩ := Except.exists_of_mem_mapM hartifacts ha
    obtain ⟨hid, artifact, hstored, hsnapshot, hsameId, hin, hround⟩ := loadVisibleArtifact_ok hloaded
    refine ⟨artifact, hstored, hsnapshot, hsameId, hin, hround, ?_⟩
    rw [← hsameId, hid]
    exact hrequested
  · exact bound_of_mapM hobjectives hobjectiveTexts
  · exact bound_of_mapM hconstraints hconstraintTexts
  · obtain ⟨hsearched, hrequested, hallowed⟩ := retrieve_ok hknowledge k hk chunk hchunk
    refine ⟨hsearched, hrequested, ?_⟩
    show chunk.namespaceId ∈ pinned.knowledgeNamespaceIds
    rw [hnamespaces]
    exact hallowed

/-! ### The first assessment -/

/-- What an assessment may depend on is the same in both states: the session, the membership of the round,
    the definition of the agent, the artifacts that the session is bound to, and what is retrieved. -/
structure AgreeForAssessment (request : ReasoningContextRequest) (ports ports' : ContextPorts)
    (s s' : ReasoningState) : Prop where
  session : ports.session request.workspaceId request.sessionId
    = ports'.session request.workspaceId request.sessionId
  membership : ports.membership request.workspaceId request.sessionId request.round
    = ports'.membership request.workspaceId request.sessionId request.round
  definition : ports.definition request.agentDefinitionId = ports'.definition request.agentDefinitionId
  bound : ∀ session, ports.session request.workspaceId request.sessionId = .ok (some session) →
    ∀ artifactId, artifactId ∈ session.objectives ∨ artifactId ∈ session.constraints →
      s.artifact? request.workspaceId request.sessionId artifactId
        = s'.artifact? request.workspaceId request.sessionId artifactId
  retrieval : ∀ retrieval ∈ request.retrievalRequest, ports.retrieve retrieval = ports'.retrieve retrieval

variable {ports' : ContextPorts} {s' : ReasoningState}

theorem loadBound_congr {kind : Impact.ArtifactKind} {message : String} {bindings : List UUID}
    (h : ∀ artifactId ∈ bindings, s.artifact? request.workspaceId request.sessionId artifactId
      = s'.artifact? request.workspaceId request.sessionId artifactId) :
    bindings.mapM (loadBound floatText s request kind message)
      = bindings.mapM (loadBound floatText s' request kind message) := by
  induction bindings with
  | nil => rfl
  | cons artifactId bindings ih =>
    have hfirst : loadBound floatText s request kind message artifactId
        = loadBound floatText s' request kind message artifactId := by
      unfold loadBound
      rw [h artifactId List.mem_cons_self]
    rw [List.mapM_cons, List.mapM_cons, hfirst, ih fun a ha => h a (List.mem_cons_of_mem _ ha)]

theorem pinnedAgent_congr (h : AgreeForAssessment request ports ports' s s') :
    pinnedAgent ports request = pinnedAgent ports' request := by
  unfold pinnedAgent
  rw [h.session, h.membership, h.definition]

theorem retrieve_congr (h : AgreeForAssessment request ports ports' s s')
    (definition : RegisteredDefinition) :
    retrieve floatText ports request definition = retrieve floatText ports' request definition := by
  unfold retrieve
  cases hrequest : request.retrievalRequest with
  | none => rfl
  | some retrieval => simp only [h.retrieval retrieval hrequest]

/-- **Sealing.**  The first assessment is the same in two states that agree on what it may depend on,
    however the other artifacts differ. -/
theorem assemble_sealed (hround : request.round = 1) (hphase : request.phase = .assess)
    (h : AgreeForAssessment request ports ports' s s') :
    assemble floatText ports s request = assemble floatText ports' s' request := by
  have hsealed : request.sealedAssessment = true := by
    simp [ReasoningContextRequest.sealedAssessment, hround, hphase]
  unfold assemble
  rw [← pinnedAgent_congr h]
  cases hagent : pinnedAgent ports request with
  | error e => rfl
  | ok agent =>
    obtain ⟨session, definition⟩ := agent
    have hbound := h.bound session (pinnedAgent_ok hagent).1
    rw [Except.ok_bind, Except.ok_bind]
    by_cases hids : request.visibleArtifactIds = []
    · -- Nothing is shown of other artifacts.
      have hvisible : loadVisibleArtifacts floatText s request
          = loadVisibleArtifacts floatText s' request := by
        unfold loadVisibleArtifacts
        rw [hids, List.mapM_nil, List.mapM_nil]
      have hobjectives : loadObjectives floatText s request session.objectives
          = loadObjectives floatText s' request session.objectives :=
        loadBound_congr fun artifactId ha => hbound artifactId (.inl ha)
      have hconstraints : loadConstraints floatText s request session.constraints
          = loadConstraints floatText s' request session.constraints :=
        loadBound_congr fun artifactId ha => hbound artifactId (.inr ha)
      simp only [hvisible, hobjectives, hconstraints, retrieve_congr h]
    · -- Both refuse to show any.
      have hrefused : require (request.sealedAssessment = true → request.visibleArtifactIds = [])
          "round 1 ASSESS cannot include prior agent artifacts"
            = .error (permanentPortError "round 1 ASSESS cannot include prior agent artifacts") :=
        if_neg fun himp => hids (himp hsealed)
      simp only [hrefused, Except.error_bind]

theorem validateBatchFrom_sealed {first : ReasoningContext} {turnIds agentIds : List UUID}
    {contexts : List ReasoningContext} (h : validateBatchFrom first turnIds agentIds contexts = .ok ()) :
    ∀ context ∈ contexts, context.round = 1 → context.phase = .assess →
      context.isSealed = true ∧ context.visibleArtifacts = [] := by
  induction contexts generalizing turnIds agentIds with
  | nil =>
    intro context hcontext
    exact absurd hcontext List.not_mem_nil
  | cons c rest ih =>
    unfold validateBatchFrom at h
    split_ifs at h with hkey hunique hopen
    intro context hcontext hround hphase
    rcases List.mem_cons.mp hcontext with rfl | hcontext
    · by_contra hshown
      apply hopen
      refine ⟨hround, hphase, ?_⟩
      simpa [or_iff_not_imp_left] using hshown
    · exact ih h context hcontext hround hphase

/-- **Reasoning turns.**  A context shows only what its turn may see; the first assessments of two states
    that agree on what an assessment may depend on are the same; and the dispatcher takes first
    assessments only if they are sealed. -/
theorem turn_sees_only_authorized (floatText : ℤ → ℤ → List Char) (ports : ContextPorts)
    (s : ReasoningState) (request : ReasoningContextRequest) :
    (∀ context, assemble floatText ports s request = .ok context →
        Authorized floatText ports s request context)
      ∧ (request.round = 1 → request.phase = .assess → ∀ ports' s',
        AgreeForAssessment request ports ports' s s' →
          assemble floatText ports s request = assemble floatText ports' s' request)
      ∧ ∀ contexts, validateBatch contexts = .ok () → ∀ context ∈ contexts, context.round = 1 →
        context.phase = .assess → context.isSealed = true ∧ context.visibleArtifacts = [] := by
  refine ⟨fun context h => assemble_authorized h, fun hround hphase ports' s' h =>
    assemble_sealed hround hphase h, fun contexts h => ?_⟩
  cases contexts with
  | nil => cases h
  | cons first rest => exact validateBatchFrom_sealed h

end Assembly

/-! ### An assessment of one objective -/

open Artifacts (ArtifactFields sampleArtifact)
open Session (sampleId noon)

def objectiveFields : ArtifactFields where
  id := sampleId 2
  workspaceId := sampleId 0
  sessionId := sampleId 1
  logicalId := sampleId 3
  ownerActorClass := .human
  ownerActorId := sampleId 0
  payload :=
    { content := .objective []
      others := [(.ofString "direction", .text "d"), (.ofString "name", .text "n"),
        (.ofString "objective_type", .text "t"), (.ofString "time_horizon", .text "h"),
        (.ofString "weight", .text "1"), (.ofString "weight_rationale", .text "r")] }
  provenance := ⟨.human, ⟨"r", .refl true⟩, none, none⟩
  createdAt := noon 0

theorem writable_objectiveFields : objectiveFields.Writable := by
  have hprint : Json.isPrintable 1 = true ∧ Json.isPrintable 0 = true := by decide
  refine ⟨?_, rfl, rfl, hprint.1, hprint.1, hprint.2⟩
  show Json.encodableEntries (_ : List (PyStr × Json)) = true
  simp [objectiveFields, Json.encodableEntries, Json.isScalar_ofString]

def sampleObjective : ReasoningArtifact where
  toArtifactFields := objectiveFields
  contentHash := sha256Hash (utf8 objectiveFields.hashPreimage.canonical)
  valid := rfl
  hashed := Marl.canonicalHash_eq_ok.mpr
    ⟨Artifacts.encodable_hashPreimage writable_objectiveFields, rfl⟩
  status := .active
  updatedAt := noon 0

def sampleDefinition : RegisteredDefinition where
  id := sampleId 4
  workspaceId := sampleId 0
  logicalId := sampleId 5
  version := 1
  status := .active
  referencedAt := none
  name := "expert"
  domain := "energy"
  roleKind := .domainExpert
  objectives := []
  constraints := []
  knowledgeNs := []
  strategyRef := "assess"
  strategyVer := "1"
  promptRef := "prompts/assess.txt"
  promptHash := Ledger.genesisHash.text
  llmConfigId := none
  toolPerms := []
  budget := .obj []
  supersededBy := none
  createdAt := none
  updatedAt := none

def samplePorts : ContextPorts where
  session _ _ := .ok (some ⟨sampleId 1, sampleId 0, ⟨"Which grid?", by decide⟩, [sampleId 2], []⟩)
  membership _ _ _ := .ok [sampleDefinition]
  definition _ := .ok (some sampleDefinition)
  retrieve _ := .error (permanentPortError "no retriever")

def sampleRequest : ReasoningContextRequest where
  workspaceId := sampleId 0
  sessionId := sampleId 1
  agentDefinitionId := sampleId 4
  turnId := sampleId 6
  correlationId := sampleId 7
  causationId := sampleId 8
  round := 1
  phase := .assess
  canonicalizerVersion := "1"
  budgetRemainingTokens := 100
  budgetRemainingUsd := ⟨1, 0⟩
  timeoutS := 30
  positive_round := Nat.one_pos
  positive_tokens := by decide
  positive_timeout := by decide +kernel

def sampleState (artifacts : List ReasoningArtifact) : ReasoningState :=
  ⟨artifacts, [], [], Ledger.genesis fun _ => none⟩

/-- An assessment sees the objective, and the same when there is an assumption beside it. -/
theorem turn_sees_only_authorized_sample :
    ∃ context, assemble (fun _ _ => []) samplePorts (sampleState [sampleObjective]) sampleRequest
        = .ok context
      ∧ Authorized (fun _ _ => []) samplePorts (sampleState [sampleObjective]) sampleRequest context
      ∧ assemble (fun _ _ => []) samplePorts (sampleState [sampleObjective, sampleArtifact 1]) sampleRequest
        = .ok context := by
  have hreturns : (assemble (fun _ _ => []) samplePorts (sampleState [sampleObjective])
      sampleRequest).isOk = true := by decide +kernel
  obtain ⟨context, hcontext⟩ := Except.exists_ok_of_isOk hreturns
  obtain ⟨hauthorized, hsealed, -⟩ := turn_sees_only_authorized (fun _ _ => []) samplePorts
    (sampleState [sampleObjective]) sampleRequest
  refine ⟨context, hcontext, hauthorized context hcontext, ?_⟩
  rw [← hsealed rfl rfl samplePorts (sampleState [sampleObjective, sampleArtifact 1])]
  · exact hcontext
  refine ⟨rfl, rfl, rfl, fun session hsession artifactId hbound => ?_, nofun⟩
  obtain rfl := Option.some.inj (Except.ok.inj hsession)
  rcases hbound with hbound | hbound
  · rw [List.mem_singleton.mp hbound]
    rfl
  · cases hbound

end Agora.Turns
