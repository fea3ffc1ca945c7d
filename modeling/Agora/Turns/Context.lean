import Agora.Artifacts.Store
import Agora.Coordinator.Ceilings
import Agora.Coordinator.Policy

namespace Agora.Turns

open Artifacts (ReasoningArtifact ArtifactPayload Confidence ParentRelationship uuids)
open Coordinator (AgentDefinition)
open Ledger (NonBlank uuidOrNull)
open Marl (Hash Text)

/-!
# Reasoning contexts

What one agent is shown in one turn.  A context pins the definition of the agent, holds the artifacts it
may see and what was retrieved for it; the first assessment is sealed.  `reasoningContext` checks these
invariants, so a `ReasoningContext` has them.
-/

/-! ### JSON text -/

section Dumps

variable (floatText : ℤ → ℤ → List Char)

/-- `\uXXXX`. -/
def unicodeEscape (n : ℕ) : List Char :=
  ['\\', 'u', Json.hexDigit (n / 4096), Json.hexDigit (n / 256), Json.hexDigit (n / 16), Json.hexDigit n]

/-- A code point of a string that is written in ASCII. -/
def asciiPoint : CodePoint → List Char
  | .surrogate n => unicodeEscape (0xD800 + n.val)
  | .scalar c =>
    if c.toNat < 0x7F then Json.escapeChar c
    else if c.toNat < 0x10000 then unicodeEscape c.toNat
    else unicodeEscape (0xD800 + (c.toNat - 0x10000) / 0x400)
      ++ unicodeEscape (0xDC00 + (c.toNat - 0x10000) % 0x400)

def asciiString (s : PyStr) : List Char := '"' :: (s.flatMap asciiPoint ++ ['"'])

mutual
/-- The text of a value; the `repr` of a float is a parameter. -/
def asciiText : Json → List Char
  | .null => ['n', 'u', 'l', 'l']
  | .bool true => ['t', 'r', 'u', 'e']
  | .bool false => ['f', 'a', 'l', 's', 'e']
  | .int n => Json.intText n
  | .float m e => floatText m e
  | .str s => asciiString s
  | .arr items => '[' :: (Json.joinComma (asciiItems items) ++ [']'])
  | .obj entries => '{' :: (Json.joinComma
      ((sortByKey (asciiEntries entries)).map fun e => asciiString e.1 ++ ':' :: e.2) ++ ['}'])
def asciiItems : List Json → List (List Char)
  | [] => []
  | j :: items => asciiText j :: asciiItems items
def asciiEntries : List (PyStr × Json) → List (PyStr × List Char)
  | [] => []
  | (k, v) :: entries => (k, asciiText v) :: asciiEntries entries
end

mutual
/-- No integer is too long to print. -/
def printable : Json → Bool
  | .int n => Json.isPrintable n
  | .arr items => printableItems items
  | .obj entries => printableEntries entries
  | _ => true
def printableItems : List Json → Bool
  | [] => true
  | j :: items => printable j && printableItems items
def printableEntries : List (PyStr × Json) → Bool
  | [] => true
  | (_, v) :: entries => printable v && printableEntries entries
end

/-- `_json`. -/
def jsonDumps (value : Json) : Py String :=
  if printable value then .ok (String.ofList (asciiText floatText value))
  else .error (.valueError "Exceeds the limit (4300 digits) for integer string conversion")

end Dumps

example : jsonDumps (fun _ _ => []) (.obj [(.ofString "b", .text "é𝕏"), (.ofString "a", .arr [.int 1])])
    = .ok "\x7b\"a\":[1],\"b\":\"\\u00e9\\ud835\\udd4f\"\x7d" := by decide +kernel

/-! ### Agents -/

inductive AgentRoleKind where
  | domainExpert
  | critic
  | orchestrator
  | retriever
  | evaluator
deriving DecidableEq, Repr

def AgentRoleKind.value : AgentRoleKind → String
  | .domainExpert => "domain_expert"
  | .critic => "critic"
  | .orchestrator => "orchestrator"
  | .retriever => "retriever"
  | .evaluator => "evaluator"

/-- An agent definition with all its fields. -/
structure RegisteredDefinition extends AgentDefinition where
  name : String
  domain : String
  roleKind : AgentRoleKind
  objectives : List String
  constraints : List String
  knowledgeNs : List UUID
  strategyRef : String
  strategyVer : String
  promptRef : String
  promptHash : String
  llmConfigId : Option UUID
  toolPerms : List String
  budget : Json
  supersededBy : Option UUID
  createdAt : Option Datetime
  updatedAt : Option Datetime

/-- `a == b`: the budgets are compared as Python compares dictionaries. -/
def RegisteredDefinition.same (a b : RegisteredDefinition) : Bool :=
  a.toAgentDefinition = b.toAgentDefinition && a.name = b.name && a.domain = b.domain
    && a.roleKind = b.roleKind && a.objectives = b.objectives && a.constraints = b.constraints
    && a.knowledgeNs = b.knowledgeNs && a.strategyRef = b.strategyRef && a.strategyVer = b.strategyVer
    && a.promptRef = b.promptRef && a.promptHash = b.promptHash && a.llmConfigId = b.llmConfigId
    && a.toolPerms = b.toolPerms && Json.pyEq a.budget b.budget && a.supersededBy = b.supersededBy
    && a.createdAt = b.createdAt && a.updatedAt = b.updatedAt

structure PinnedAgentDefinition where
  id : UUID
  logicalId : UUID
  version : ℕ
  name : NonBlank
  domain : NonBlank
  roleKind : String
  objectives : List NonBlank
  constraints : List NonBlank
  knowledgeNamespaceIds : List UUID
  strategyName : NonBlank
  strategyVersion : NonBlank
  promptRef : NonBlank
  promptHash : Hash
  positive_version : 0 < version

/-- A text that a validator reads. -/
def validText (valid : String → Bool) (message : String) (text : String) : Py (Text valid) :=
  if h : valid text = true then .ok ⟨text, h⟩ else .error (.valueError message)

def nonBlank (message text : String) : Py NonBlank := validText (fun s => !isBlank s) message text

def definitionText : String → Py NonBlank := nonBlank "pinned agent definition text must not be blank"

/-- `_pinned_definition`. -/
def pinnedDefinition (definition : RegisteredDefinition) : Py PinnedAgentDefinition :=
  if hversion : 0 < definition.version then do
    let name ← definitionText definition.name
    let domain ← definitionText definition.domain
    let objectives ← definition.objectives.mapM definitionText
    let constraints ← definition.constraints.mapM definitionText
    let strategyName ← definitionText definition.strategyRef
    let strategyVersion ← definitionText definition.strategyVer
    let promptRef ← definitionText definition.promptRef
    let promptHash ← validText Marl.isHash "String should match pattern '^sha256:[0-9a-f]\x7b64\x7d$'"
      definition.promptHash
    pure {
      id := definition.id
      logicalId := definition.logicalId
      version := definition.version
      name, domain
      roleKind := definition.roleKind.value
      objectives, constraints
      knowledgeNamespaceIds := definition.knowledgeNs
      strategyName, strategyVersion, promptRef, promptHash
      positive_version := hversion }
  else .error (.valueError "Input should be greater than 0")

/-! ### Retrieval -/

inductive NamespaceSubjectKind where
  | workspace
  | user
  | agentDefinition
  | session
deriving DecidableEq, Repr

inductive PrincipalClass where
  | human
  | agent
deriving DecidableEq, Repr

inductive RetrievalDegradation where
  | none
  | lexicalOnly
  | indexMismatch
  | rerankerFailed
deriving DecidableEq, Repr

def RetrievalDegradation.value : RetrievalDegradation → String
  | .none => "NONE"
  | .lexicalOnly => "LEXICAL_ONLY"
  | .indexMismatch => "INDEX_MISMATCH"
  | .rerankerFailed => "RERANKER_FAILED"

/-- The scores are the rational numbers that the floats are. -/
structure RetrievalRequest where
  attemptId : UUID
  traceId : UUID
  workspaceId : UUID
  principalClass : PrincipalClass
  principalId : UUID
  namespaceIds : List UUID
  subjects : List (NamespaceSubjectKind × UUID)
  query : NonBlank
  queryVector : List ℚ
  embeddingModel : NonBlank
  embeddingVersion : NonBlank
  indexVersion : NonBlank
  requestedAt : Datetime
  expectedMatch : Bool := false
  finalK : ℕ := 8
  lexicalMinScore : ℚ := 0
  vectorMinScore : ℚ := 0

/-- What a hit and what an agent is shown of it have in common. -/
structure ChunkFields where
  namespaceId : UUID
  chunkId : UUID
  documentId : UUID
  sourceId : UUID
  citation : NonBlank
  text : String
  sourceContentHash : Hash
  contentHash : Hash
  chunkerVersion : NonBlank
  sourceTimestamp : Datetime
  documentTimestamp : Datetime
  retrievedAt : Datetime
  trustLevel : NonBlank
  lexicalScore : Option ℚ := none
  vectorScore : Option ℚ := none
  fusedScore : ℚ
  rerankScore : Option ℚ := none
  indexVersion : String

structure RetrievedChunk extends ChunkFields where
  locator : List (PyStr × Json)
  score : ℚ

structure RetrievalResult where
  queryHash : Hash
  requestedNamespaceIds : List UUID
  searchedNamespaceIds : List UUID
  indexVersion : String
  embeddingModel : String
  embeddingVersion : String
  rerankerVersion : String
  lexicalCount : ℕ
  vectorCount : ℕ
  degradation : RetrievalDegradation
  warnings : List String := []
  chunks : List RetrievedChunk

structure AuthorizedKnowledgeChunk extends ChunkFields where
  locatorJson : String

structure AuthorizedKnowledge where
  queryHash : Hash
  requestedNamespaceIds : List UUID
  searchedNamespaceIds : List UUID
  indexVersion : String
  embeddingModel : String
  embeddingVersion : String
  rerankerVersion : String
  lexicalCount : ℕ
  vectorCount : ℕ
  degradation : String
  warnings : List String
  chunks : List AuthorizedKnowledgeChunk
  reranker_named : rerankerVersion ≠ ""

/-! ### Contexts -/

inductive ReasoningPhase where
  | assess
  | decompose
  | argue
  | critique
  | revise
  | score
deriving DecidableEq, Repr

structure ContextArtifact where
  id : UUID
  kind : String
  ownerActorClass : String
  ownerActorId : UUID
  round : ℕ
  contentHash : Hash
  artifactJson : String

/-- The timeout may be infinite. -/
structure ReasoningContext where
  workspaceId : UUID
  sessionId : UUID
  agentDefinition : PinnedAgentDefinition
  canonicalizerVersion : NonBlank
  turnId : UUID
  correlationId : UUID
  causationId : UUID
  round : ℕ
  phase : ReasoningPhase
  problemStatement : NonBlank
  objectiveSummaries : List NonBlank
  constraintSummaries : List NonBlank
  visibleArtifacts : List ContextArtifact
  retrieval : Option AuthorizedKnowledge
  isSealed : Bool
  budgetRemainingTokens : ℕ
  budgetRemainingUsd : Coordinator.Decimal
  timeoutS : WithTop ℚ
  positive_round : 1 ≤ round
  positive_tokens : 0 < budgetRemainingTokens
  positive_timeout : 0 < timeoutS
  unique_artifacts : (visibleArtifacts.map (·.id)).Nodup
  sealed_assessment : round = 1 ∧ phase = .assess → isSealed = true ∧ visibleArtifacts = []

namespace ReasoningContext

variable (context : ReasoningContext)

/-- The identity of the agent is that of its pinned definition. -/
def agentDefinitionId : UUID := context.agentDefinition.id

def agentDefinitionVersion : ℕ := context.agentDefinition.version

def strategyName : NonBlank := context.agentDefinition.strategyName

def strategyVersion : NonBlank := context.agentDefinition.strategyVersion

/-- The ids are those of the artifacts. -/
def visibleArtifactIds : List UUID := context.visibleArtifacts.map (·.id)

end ReasoningContext

/-! ### Artifacts as they are shown -/

def lifecycleValue : Artifacts.LifecycleStatus → String
  | .active => "ACTIVE"
  | .superseded => "SUPERSEDED"
  | .withdrawn => "WITHDRAWN"

/-- `artifact.model_dump(mode="json")`, with its keys sorted. -/
def artifactDump (a : ReasoningArtifact) : Json :=
  .obj [(.ofString "confidence", (a.confidence.map Confidence.modelDump).getD .null),
    (.ofString "content_hash", .text a.contentHash.text),
    (.ofString "created_at", .text (String.ofList a.createdAt.zulu)),
    (.ofString "id", .text a.id.text),
    (.ofString "kind", .text a.kind.value),
    (.ofString "logical_id", .text a.logicalId.text),
    (.ofString "metadata", .obj a.metadata),
    (.ofString "owner_actor_class", .text a.ownerActorClass.value),
    (.ofString "owner_actor_id", .text a.ownerActorId.text),
    (.ofString "parent_relationships", .arr (a.parentRelationships.map ParentRelationship.modelDump)),
    (.ofString "payload", a.payload.modelDump),
    (.ofString "provenance", a.provenance.modelDump),
    (.ofString "round", .int a.round),
    (.ofString "schema_version", .int a.schemaVersion),
    (.ofString "session_id", .text a.sessionId.text),
    (.ofString "source_references", .arr a.sourceReferences),
    (.ofString "status", .text (lifecycleValue a.status)),
    (.ofString "supersedes_id", uuidOrNull a.supersedesId),
    (.ofString "updated_at", .text (String.ofList a.updatedAt.zulu)),
    (.ofString "version", .int a.version),
    (.ofString "workspace_id", .text a.workspaceId.text)]

/-- `_artifact_snapshot`. -/
def artifactSnapshot (floatText : ℤ → ℤ → List Char) (a : ReasoningArtifact) : Py ContextArtifact := do
  let artifactJson ← jsonDumps floatText (artifactDump a)
  pure {
    id := a.id
    kind := a.kind.value
    ownerActorClass := a.ownerActorClass.value
    ownerActorId := a.ownerActorId
    round := a.round
    contentHash := a.contentHash
    artifactJson }

end Agora.Turns
