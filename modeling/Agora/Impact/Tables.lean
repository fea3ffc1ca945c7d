import Agora.Lib.GraphSearch
import Agora.Lib.Python

namespace Agora.Impact

/-!
# Reasoning artifacts and their graph

The rows that an impact analysis reads: the artifacts of the sessions, the graph over them, the
citations of sources by evidence, and the results that select artifacts.  The constraints of the
schema are part of the tables.
-/

inductive ArtifactKind where
  | claim
  | fact
  | assumption
  | inference
  | proposition
  | evidence
  | uncertainty
  | risk
  | impact
  | objective
  | constraint
  | alternative
  | position
  | critique
deriving DecidableEq, Repr

/-- `reasoning_artifacts`. -/
structure ReasoningArtifact where
  id : UUID
  workspaceId : UUID
  sessionId : UUID
  kind : ArtifactKind
  logicalId : UUID
  version : ℕ
deriving DecidableEq

/-- A node stands for an artifact of its session. -/
structure GraphNode where
  id : UUID
  workspaceId : UUID
  sessionId : UUID
  kind : ArtifactKind
  refId : UUID
deriving DecidableEq

structure GraphEdge where
  id : UUID
  workspaceId : UUID
  sessionId : UUID
  fromNode : UUID
  toNode : UUID
  no_self_loop : fromNode ≠ toNode
deriving DecidableEq

/-- A piece of evidence cites a source. -/
structure EvidenceCitation where
  workspaceId : UUID
  sessionId : UUID
  evidenceArtifactId : UUID
  sourceId : UUID

structure ConsensusResult where
  id : UUID
  workspaceId : UUID
  sessionId : UUID
  selectedAlternativeId : Option UUID
  paretoSet : List UUID

structure Recommendation where
  id : UUID
  workspaceId : UUID
  sessionId : UUID
  consensusId : UUID

/-- The rows, with the unique and foreign keys that the analysis relies on. -/
structure ReasoningTables where
  artifacts : List ReasoningArtifact
  nodes : List GraphNode
  edges : List GraphEdge
  citations : List EvidenceCitation
  consensusResults : List ConsensusResult
  recommendations : List Recommendation
  artifact_ids : (artifacts.map (·.id)).Nodup
  node_ids : (nodes.map (·.id)).Nodup
  node_refs : (nodes.map fun v => (v.sessionId, v.refId)).Nodup
  edge_ids : (edges.map (·.id)).Nodup
  edge_ends : ∀ e ∈ edges, ∀ id ∈ [e.fromNode, e.toNode],
    ∃ v ∈ nodes, v.id = id ∧ v.workspaceId = e.workspaceId ∧ v.sessionId = e.sessionId
  cited_evidence : ∀ c ∈ citations, ∃ a ∈ artifacts, a.id = c.evidenceArtifactId
    ∧ a.workspaceId = c.workspaceId ∧ a.sessionId = c.sessionId

namespace ReasoningTables

variable (t : ReasoningTables) (workspaceId sessionId : UUID)

def sessionNodes : List GraphNode :=
  t.nodes.filter fun v => v.workspaceId = workspaceId ∧ v.sessionId = sessionId

def sessionEdges : List GraphEdge :=
  t.edges.filter fun e => e.workspaceId = workspaceId ∧ e.sessionId = sessionId

/-- The graph of a session, forward. -/
def sessionGraph : Multigraph UUID GraphEdge :=
  listGraph GraphEdge.fromNode GraphEdge.toNode (t.sessionEdges workspaceId sessionId)

def nodeForArtifact (artifactId : UUID) : Option GraphNode :=
  (t.sessionNodes workspaceId sessionId).find? (·.refId = artifactId)

/-- `dependencies`, of the citations of a source. -/
def citationRoots (sourceId : UUID) : List EvidenceCitation :=
  t.citations.filter fun c => c.workspaceId = workspaceId ∧ c.sourceId = sourceId

variable {t workspaceId sessionId}

theorem mem_sessionNodes {v : GraphNode} : v ∈ t.sessionNodes workspaceId sessionId
    ↔ v ∈ t.nodes ∧ v.workspaceId = workspaceId ∧ v.sessionId = sessionId := by
  simp [sessionNodes]

theorem mem_sessionEdges {e : GraphEdge} : e ∈ t.sessionEdges workspaceId sessionId
    ↔ e ∈ t.edges ∧ e.workspaceId = workspaceId ∧ e.sessionId = sessionId := by
  simp [sessionEdges]

/-- A node is known by its id. -/
theorem node_eq_of_id_eq {v w : GraphNode} (hv : v ∈ t.nodes) (hw : w ∈ t.nodes) (h : v.id = w.id) :
    v = w :=
  List.inj_on_of_nodup_map t.node_ids hv hw h

theorem edge_eq_of_id_eq {e f : GraphEdge} (he : e ∈ t.edges) (hf : f ∈ t.edges) (h : e.id = f.id) :
    e = f :=
  List.inj_on_of_nodup_map t.edge_ids he hf h

theorem nodup_sessionEdges : (t.sessionEdges workspaceId sessionId).Nodup :=
  (t.edge_ids.of_map _).filter _

/-- An edge of a session leads to a node of the session. -/
theorem exists_target {e : GraphEdge} (he : e ∈ t.sessionEdges workspaceId sessionId) :
    ∃ v ∈ t.sessionNodes workspaceId sessionId, v.id = e.toNode := by
  obtain ⟨hmem, hworkspace, hsession⟩ := mem_sessionEdges.mp he
  obtain ⟨v, hv, hid, hw, hs⟩ := t.edge_ends e hmem e.toNode (by simp)
  exact ⟨v, mem_sessionNodes.mpr ⟨hv, hw.trans hworkspace, hs.trans hsession⟩, hid⟩

/-- What is reached from a node of a session is one. -/
theorem exists_node_of_reachable {v : GraphNode} {id : UUID}
    (hv : v ∈ t.sessionNodes workspaceId sessionId)
    (h : (t.sessionGraph workspaceId sessionId).Reachable v.id id) :
    ∃ w ∈ t.sessionNodes workspaceId sessionId, w.id = id := by
  obtain ⟨es, hes, hend⟩ := h
  cases es using List.reverseRecOn with
  | nil => exact ⟨v, hv, hend⟩
  | append_singleton es e =>
    rw [Multigraph.walkEnd_append] at hend
    obtain ⟨w, hw, hid⟩ := exists_target (Multigraph.isWalk_append.mp hes).2.1
    exact ⟨w, hw, hid.trans hend⟩

/-- Cited evidence is in one session. -/
theorem session_eq_of_evidence_eq {c d : EvidenceCitation} (hc : c ∈ t.citations)
    (hd : d ∈ t.citations) (h : c.evidenceArtifactId = d.evidenceArtifactId) :
    c.sessionId = d.sessionId := by
  obtain ⟨a, ha, hid, -, hsession⟩ := t.cited_evidence c hc
  obtain ⟨b, hb, hid', -, hsession'⟩ := t.cited_evidence d hd
  obtain rfl : a = b :=
    List.inj_on_of_nodup_map t.artifact_ids ha hb (hid.trans (h.trans hid'.symm))
  exact hsession.symm.trans hsession'

end ReasoningTables

end Agora.Impact
