import Agora.Impact.Traversal
import Mathlib.Data.Prod.Lex

namespace Agora.Impact

/-!
# What depends on a source

`impactOf` starts from the evidence that cites a source.  It reads the graph forward in windows of
bounded depth, goes on from the nodes of a window that is cut off, and measures the distance and the
number of paths to everything it has seen.
-/

/-! ### Results -/

inductive ImpactError where
  | outOfFuel
  | citation (message : String)
  | other (e : PyException)

inductive SourceStatus where
  | processing
  | ready
  | failed
  | retracted
deriving DecidableEq, Repr

structure Source where
  id : UUID
  workspaceId : UUID
  status : SourceStatus

inductive ImpactDependencyType where
  | artifact
  | consensusResult
  | recommendation
deriving DecidableEq, Repr

def ImpactDependencyType.value : ImpactDependencyType → String
  | .artifact => "ARTIFACT"
  | .consensusResult => "CONSENSUS_RESULT"
  | .recommendation => "RECOMMENDATION"

structure ArtifactSnapshot where
  kind : ArtifactKind
  logicalId : UUID
  version : ℕ
deriving DecidableEq

/-- Artifacts, and only they, come with a snapshot. -/
structure ImpactDependency where
  dependencyType : ImpactDependencyType
  dependentId : UUID
  sessionId : UUID
  rootEvidenceId : UUID
  snapshot : Option ArtifactSnapshot
  minDepth : ℕ
  pathCount : ℕ
  evidenceWeight : ℕ
  exact_artifact_snapshot : snapshot.isSome = true ↔ dependencyType = .artifact
deriving DecidableEq

inductive ImpactAnalysisStatus where
  | complete
  | incomplete
deriving DecidableEq, Repr

structure ImpactAnalysisResult where
  status : ImpactAnalysisStatus
  complete : Bool
  truncated : Bool
  dependencies : List ImpactDependency
  error : Option String
  complete_iff : complete = true ↔ status = .complete
  truncated_eq : truncated = !complete
  no_error : complete = true → error = none

/-- The result of an analysis that has come to its end. -/
def ImpactAnalysisResult.finished (truncated : Bool) (dependencies : List ImpactDependency) :
    ImpactAnalysisResult where
  status := if truncated then .incomplete else .complete
  complete := !truncated
  truncated := truncated
  dependencies := dependencies
  error := none
  complete_iff := by cases truncated <;> simp
  truncated_eq := by simp
  no_error _ := rfl

/-- The result of one that has raised. -/
def ImpactAnalysisResult.failed (message : String) : ImpactAnalysisResult where
  status := .incomplete
  complete := false
  truncated := true
  dependencies := []
  error := some message
  complete_iff := by simp
  truncated_eq := rfl
  no_error h := by cases h

/-! ### Reading the graph -/

section Explore

variable {κ : Type} (request : UUID → Option κ → Py (TraversalResult κ)) (fuel : ℕ)

/-- What the pages around one node have shown. -/
structure Segment (κ : Type) where
  cursor : Option κ
  nodes : List GraphNode
  edges : List GraphEdge
  truncated : Bool

def Segment.add (s : Segment κ) (page : TraversalResult κ) : Segment κ where
  cursor := page.nextCursor
  nodes := keyedUpdate (·.id) s.nodes page.nodes
  edges := keyedUpdate (·.id) s.edges page.edges
  truncated := s.truncated || page.truncated

def readPage (request : Option κ → Py (TraversalResult κ)) (s : Segment κ) :
    Except ImpactError (Segment κ ⊕ Segment κ) := do
  let page ← (request s.cursor).mapError .other
  pure (if page.nextCursor.isNone then .inr (s.add page) else .inl (s.add page))

/-- All pages around a node. -/
def readSegment (frontier : UUID) : Except ImpactError (Segment κ) :=
  loop .outOfFuel (readPage (request frontier)) fuel ⟨none, [], [], false⟩

/-- The nodes still to start from, those that have been started from, and all that has been seen. -/
structure Exploration where
  queue : List GraphNode
  expanded : List UUID
  nodes : List GraphNode
  edges : List GraphEdge
  truncated : Bool

def Exploration.start (root : GraphNode) : Exploration := ⟨[root], [], [], [], false⟩

/-- The nodes of a segment that is cut off and that have not been started from. -/
def continuation (s : Segment κ) (expanded : List UUID) : List GraphNode :=
  if s.truncated then s.nodes.filter (·.id ∉ expanded) else []

def expandNext (e : Exploration) : Except ImpactError (Exploration ⊕ Exploration) :=
  match e.queue with
  | [] => .ok (.inr e)
  | frontier :: queue =>
    if frontier.id ∈ e.expanded then .ok (.inl { e with queue })
    else do
      let expanded := e.expanded ++ [frontier.id]
      let s ← readSegment request fuel frontier.id
      let further := continuation s expanded
      pure (.inl
        { queue := queue ++ further.insertionSort fun a b => a.id ≤ b.id
          expanded
          nodes := keyedUpdate (·.id) e.nodes s.nodes
          edges := keyedUpdate (·.id) e.edges s.edges
          truncated := e.truncated || s.truncated && further.isEmpty })

def explore (root : GraphNode) : Except ImpactError Exploration :=
  loop .outOfFuel (expandNext request fuel) fuel (.start root)

end Explore

/-! ### Measures -/

/-- `_shortest_depth`. -/
def shortestDepthOf (maxDepth : ℕ) (root target : GraphNode) (edges : List GraphEdge) :
    Except ImpactError ℕ :=
  if root.id = target.id then .ok 0
  else shortestDepth GraphEdge.fromNode GraphEdge.toNode edges .outOfFuel root.id target.id maxDepth

/-- `_path_count`. -/
def pathCountOf (root target : GraphNode) (edges : List GraphEdge) : Except ImpactError ℕ :=
  if root.id = target.id then .ok 1
  else pathCount GraphEdge.fromNode GraphEdge.toNode edges .outOfFuel root.id target.id

/-- A node with its distance from a root and the number of paths. -/
structure Reached where
  node : GraphNode
  rootEvidenceId : UUID
  minDepth : ℕ
  pathCount : ℕ

def Reached.key (r : Reached) : UUID × UUID × UUID :=
  (r.node.refId, r.node.sessionId, r.rootEvidenceId)

def measure (maxDepth : ℕ) (root : GraphNode) (evidenceId : UUID) (edges : List GraphEdge)
    (node : GraphNode) : Except ImpactError Reached := do
  let minDepth ← shortestDepthOf maxDepth root node edges
  let pathCount ← pathCountOf root node edges
  pure ⟨node, evidenceId, minDepth, pathCount⟩

/-- The order of two reached nodes: by depth, artifact and root. -/
def Reached.sortKey (r : Reached) : ℕ ×ₗ UUID ×ₗ UUID :=
  toLex (r.minDepth, toLex (r.node.refId, r.rootEvidenceId))

/-! ### Records -/

/-- The dependency on an artifact. -/
def artifactDependency (r : Reached) (a : ReasoningArtifact) : ImpactDependency where
  dependencyType := .artifact
  dependentId := r.node.refId
  sessionId := a.sessionId
  rootEvidenceId := r.rootEvidenceId
  snapshot := some ⟨a.kind, a.logicalId, a.version⟩
  minDepth := r.minDepth
  pathCount := r.pathCount
  evidenceWeight := 1
  exact_artifact_snapshot := by simp

/-- The measures of an artifact and a root, or of a record that depends on it. -/
structure Metric (ι : Type) where
  key : ι
  sessionId : UUID
  depth : ℕ
  paths : ℕ
  weight : ℕ

/-- The least depth, and the sums of the rest. -/
def Metric.merge {ι : Type} (a b : Metric ι) : Metric ι :=
  { a with
    sessionId := b.sessionId
    depth := min a.depth b.depth
    paths := a.paths + b.paths
    weight := a.weight + b.weight }

/-- Merge with the entry that has the key, if there is one. -/
def addMetric {ι : Type} [DecidableEq ι] (metrics : List (Metric ι)) (m : Metric ι) :
    List (Metric ι) :=
  keyedSet (·.key) metrics ((metrics.find? (·.key = m.key)).elim m (·.merge m))

/-- A consensus result or a recommendation, with the artifacts it rests on. -/
structure DownstreamRow where
  dependencyType : ImpactDependencyType
  dependentId : UUID
  sessionId : UUID
  artifactIds : List UUID
  not_artifact : dependencyType ≠ .artifact

def ConsensusResult.artifactIds (c : ConsensusResult) : List UUID :=
  c.paretoSet ++ c.selectedAlternativeId.toList

/-- What keys a downstream record: its row and the root evidence. -/
structure DownstreamKey where
  dependencyType : ImpactDependencyType
  dependentId : UUID
  rootEvidenceId : UUID
  not_artifact : dependencyType ≠ .artifact
deriving DecidableEq

/-- How much further than an artifact the record is. -/
def increment : ImpactDependencyType → ℕ
  | .consensusResult => 1
  | _ => 2

def downstreamDependency (m : Metric DownstreamKey) : ImpactDependency where
  dependencyType := m.key.dependencyType
  dependentId := m.key.dependentId
  sessionId := m.sessionId
  rootEvidenceId := m.key.rootEvidenceId
  snapshot := none
  minDepth := m.depth
  pathCount := m.paths
  evidenceWeight := m.weight
  exact_artifact_snapshot := by simp [m.key.not_artifact]

/-! ### The repository -/

def lockSourceForAnalysis (sources : List Source) (workspaceId sourceId : UUID) :
    Except ImpactError Unit :=
  if sources.any fun s => s.workspaceId = workspaceId ∧ s.id = sourceId ∧ s.status ≠ .retracted then
    .ok ()
  else .error (.citation "source does not exist or is already retracted")

namespace ReasoningTables

variable (t : ReasoningTables) (workspaceId : UUID)

/-- The artifact of a workspace with an id. -/
def artifact? (id : UUID) : Option ReasoningArtifact :=
  t.artifacts.find? fun a => a.workspaceId = workspaceId ∧ a.id = id

/-- One dependency for each artifact and root, where the artifact exists. -/
def artifactDependencies (reached : List Reached) : List ImpactDependency :=
  let metrics := keyedUpdate (fun r : Reached => (r.node.refId, r.rootEvidenceId)) [] reached
  (metrics.insertionSort fun a b => a.sortKey ≤ b.sortKey).filterMap fun r =>
    (t.artifact? workspaceId r.node.refId).map (artifactDependency r)

/-- The rows of the query, `ORDER BY dependency_type, dependent_id`. -/
def downstreamRows (ids : List UUID) : List DownstreamRow :=
  let selects (c : ConsensusResult) : Bool := c.artifactIds.any (· ∈ ids)
  let results := t.consensusResults.filter fun c => c.workspaceId = workspaceId ∧ selects c
  let recommended := t.recommendations.flatMap fun r =>
    (t.consensusResults.filter fun c => c.workspaceId = r.workspaceId ∧ c.id = r.consensusId
      ∧ r.workspaceId = workspaceId ∧ selects c).map fun c => (r, c)
  (results.map fun c =>
      (⟨.consensusResult, c.id, c.sessionId, c.artifactIds, by simp⟩ : DownstreamRow)
    ).insertionSort (fun a b => a.dependentId ≤ b.dependentId)
    ++ (recommended.map fun (r, c) =>
      (⟨.recommendation, r.id, r.sessionId, c.artifactIds, by simp⟩ : DownstreamRow)
    ).insertionSort (fun a b => a.dependentId ≤ b.dependentId)

def downstreamRecords (artifacts : List ImpactDependency) : List ImpactDependency :=
  let metrics : List (Metric (UUID × UUID)) := artifacts.foldl (fun metrics a => addMetric metrics
    ⟨(a.dependentId, a.rootEvidenceId), a.sessionId, a.minDepth, a.pathCount, a.evidenceWeight⟩) []
  let rows := t.downstreamRows workspaceId (metrics.map (·.key.1))
  let records : List (Metric DownstreamKey) := rows.flatMap fun row =>
    (metrics.filter (·.key.1 ∈ row.artifactIds)).map fun m =>
      { key := ⟨row.dependencyType, row.dependentId, m.key.2, row.not_artifact⟩
        sessionId := row.sessionId
        depth := m.depth + increment row.dependencyType
        paths := m.paths
        weight := m.weight }
  let aggregate := records.foldl addMetric []
  (aggregate.insertionSort fun a b => toLex (a.key.dependencyType.value,
      toLex (a.depth, toLex (a.key.dependentId, a.key.rootEvidenceId)))
    ≤ toLex (b.key.dependencyType.value,
      toLex (b.depth, toLex (b.key.dependentId, b.key.rootEvidenceId)))).map downstreamDependency

end ReasoningTables

/-! ### The service -/

/-- `_dependency_key`. -/
def dependencyKey (d : ImpactDependency) : String ×ₗ ℕ ×ₗ UUID :=
  toLex (d.dependencyType.value, toLex (d.minDepth, d.dependentId))

section Service

variable {κ : Type} (trace : TraceForward κ) (maxDepth fuel : ℕ) (t : ReasoningTables)
  (workspaceId sourceId : UUID)

/-- The sessions and artifacts of the evidence that cites the source, each once and sorted. -/
def citedRoots : List (UUID × UUID) :=
  ((t.citationRoots workspaceId sourceId).map fun c =>
    (c.sessionId, c.evidenceArtifactId)).dedup.insertionSort fun a b => toLex a ≤ toLex b

/-- One root: what it reaches, or that it has no node. -/
def analyseRoot (state : List Reached × Bool) (root : UUID × UUID) :
    Except ImpactError (List Reached × Bool) :=
  match t.nodeForArtifact workspaceId root.1 root.2 with
  | none => .ok (state.1, true)
  | some node => do
    let request (id : UUID) (cursor : Option κ) :=
      trace workspaceId root.1 id maxDepth maxPageSize cursor
    let e ← explore request fuel node
    let reached ← e.nodes.mapM (measure maxDepth node root.2 e.edges)
    pure (keyedUpdate Reached.key state.1 reached, state.2 || e.truncated)

/-- The `try` block: whether something is missing, and the dependencies. -/
def analyse : Except ImpactError (Bool × List ImpactDependency) := do
  let (aggregate, truncated) ← (citedRoots t workspaceId sourceId).foldlM
    (analyseRoot trace maxDepth fuel t workspaceId) ([], false)
  let artifacts := t.artifactDependencies workspaceId
    (aggregate.insertionSort fun a b => a.sortKey ≤ b.sortKey)
  let downstream := t.downstreamRecords workspaceId artifacts
  pure (truncated || artifacts.length ≠ aggregate.length,
    (artifacts ++ downstream).insertionSort fun a b => dependencyKey a ≤ dependencyKey b)

/-- `impact_of`.  Running out of fuel is not an exception that it could catch. -/
def impactOf (sources : List Source) : Except ImpactError ImpactAnalysisResult := do
  lockSourceForAnalysis sources workspaceId sourceId
  match analyse trace maxDepth fuel t workspaceId sourceId with
  | .ok (truncated, dependencies) => pure (.finished truncated dependencies)
  | .error .outOfFuel => .error .outOfFuel
  | .error (.citation message) => pure (.failed message)
  | .error (.other e) => pure (.failed e.message)

end Service

end Agora.Impact
