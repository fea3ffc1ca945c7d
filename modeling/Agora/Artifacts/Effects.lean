import Agora.Artifacts.Commit

namespace Agora.Artifacts

open Ledger (LedgerAppend LedgerEvent)
open Impact (ArtifactKind)
open Stateful

/-!
# What the service writes

For each operation, when it returns and with which rows:

* `addRelationships_ok`, `parentEdges_iff`: the edges from an artifact to its parents;
* `commit_ok`, `revise_ok`, `withdraw_ok`: the operations, as equivalences.
-/

variable {db : ReasoningDatabase} {s s' : ReasoningState}

/-! ### Rows -/

/-- What a node and an artifact have in common. -/
def GraphNode.projection (v : GraphNode) : UUID × UUID × UUID × ArtifactKind :=
  (v.workspaceId, v.sessionId, v.refId, v.kind)

def ReasoningArtifact.projection (a : ReasoningArtifact) : UUID × UUID × UUID × ArtifactKind :=
  (a.workspaceId, a.sessionId, a.id, a.kind)

theorem graphNode_ok {artifact : ReasoningArtifact} {nodeId : UUID} {label : String} {node : GraphNode}
    (h : graphNode artifact nodeId label = .ok node) :
    node.id = nodeId ∧ node.projection = artifact.projection := by
  obtain ⟨_, -, h⟩ := Except.bind_eq_ok.mp h
  split_ifs at h
  obtain rfl := Except.ok.inj h
  exact ⟨rfl, rfl⟩

/-- The values of an edge. -/
structure IsEdge (artifact : ReasoningArtifact) (edgeId fromNode toNode : UUID)
    (edgeType : GraphEdgeType) (e : GraphEdge) : Prop where
  id : e.id = edgeId
  workspaceId : e.workspaceId = artifact.workspaceId
  sessionId : e.sessionId = artifact.sessionId
  source : e.fromNode = fromNode
  target : e.toNode = toNode
  edgeType : e.edgeType = edgeType

theorem graphEdge_ok {artifact : ReasoningArtifact} {edgeId fromNode toNode : UUID}
    {edgeType : GraphEdgeType} {qualifier : Json} {context : ArtifactEventContext} {e : GraphEdge}
    (h : graphEdge artifact edgeId fromNode toNode edgeType qualifier context = .ok e) :
    IsEdge artifact edgeId fromNode toNode edgeType e := by
  obtain ⟨_, -, h⟩ := Except.bind_eq_ok.mp h
  split_ifs at h
  obtain rfl := Except.ok.inj h
  exact ⟨rfl, rfl, rfl, rfl, rfl, rfl⟩

/-- A number that can be printed and a label that is not blank make a node. -/
theorem exists_graphNode {artifact : ReasoningArtifact} (nodeId : UUID) {label : String}
    (hversion : Json.isPrintable artifact.version = true) (hlabel : isBlank label = false) :
    ∃ node, graphNode artifact nodeId label = .ok node := by
  have hattrs : (Json.obj [(.ofString "logical_id", .text artifact.logicalId.text),
      (.ofString "version", .int artifact.version)]).encodable = true := by
    simp only [Json.encodable, Json.encodableEntries, Json.text, Json.isScalar_ofString, hversion,
      Bool.and_self]
  have hlabel : (!isBlank label) = true := by rw [hlabel]; rfl
  simp only [graphNode, Json.canonicalJson_of_encodable hattrs, Except.ok_bind, dif_pos hlabel]
  exact ⟨_, rfl⟩

/-! ### Edges -/

/-- Two edges do not share a key. -/
def GraphEdge.Separate (e f : GraphEdge) : Prop := e.id ≠ f.id ∧ e.tripleKey ≠ f.tripleKey

theorem freshEdge_iff {e : GraphEdge} : s.freshEdge e = true ↔ ∀ f ∈ s.edges, f.Separate e := by
  simp [ReasoningState.freshEdge, GraphEdge.Separate]

/-- Edges that can be drawn beside those of the table. -/
structure EdgesFit (db : ReasoningDatabase) (old new : List GraphEdge) : Prop where
  accepted : ∀ e ∈ new, db.acceptsEdge e = true
  fresh : ∀ f ∈ old, ∀ e ∈ new, f.Separate e
  distinct : new.Pairwise GraphEdge.Separate

theorem EdgesFit.nil (old : List GraphEdge) : EdgesFit db old [] := ⟨by simp, by simp, by simp⟩

theorem edgesFit_cons {old new : List GraphEdge} {e : GraphEdge} : EdgesFit db old (e :: new)
    ↔ ((∀ f ∈ old, f.Separate e) ∧ db.acceptsEdge e = true) ∧ EdgesFit db (old ++ [e]) new := by
  constructor
  · intro h
    obtain ⟨hfirst, hrest⟩ := List.pairwise_cons.mp h.distinct
    refine ⟨⟨fun f hf => h.fresh f hf e (by simp), h.accepted e (by simp)⟩, ?_, ?_, hrest⟩
    · intro f hf
      exact h.accepted f (by simp [hf])
    · intro f hf g hg
      rcases List.mem_append.mp hf with hf | hf
      · exact h.fresh f hf g (by simp [hg])
      · obtain rfl := List.mem_singleton.mp hf
        exact hfirst g hg
  · rintro ⟨⟨hfresh, haccepts⟩, hrest⟩
    refine ⟨?_, ?_, List.pairwise_cons.mpr ⟨?_, hrest.distinct⟩⟩
    · simpa [haccepts] using hrest.accepted
    · intro f hf g hg
      rcases List.mem_cons.mp hg with rfl | hg
      · exact hfresh f hf
      · exact hrest.fresh f (by simp [hf]) g hg
    · intro g hg
      exact hrest.fresh e (by simp) g hg

theorem addRelationships_ok {artifact : ReasoningArtifact} {node : GraphNode}
    {context : ArtifactEventContext} {parents : List (ParentRelationship × UUID × GraphNode)} :
    addRelationships db artifact node context parents s = (.ok (), s')
      ↔ ∃ edges, parents.mapM (relationshipEdge artifact node context) = .ok edges
        ∧ EdgesFit db s.edges edges ∧ s' = { s with edges := s.edges ++ edges } := by
  simp only [Except.mapM_eq_ok_iff]
  induction parents generalizing s with
  | nil => simp [addRelationships, EdgesFit.nil, eq_comm]
  | cons parent parents ih =>
    simp only [addRelationships, lift_bind_eq_ok, addEdge, flush_bind, ih, Bool.and_eq_true,
      freshEdge_iff, List.forall₂_cons_left_iff]
    constructor
    · rintro ⟨e, he, hfresh, edges, hedges, hfit, rfl⟩
      exact ⟨e :: edges, ⟨e, edges, he, hedges, rfl⟩, edgesFit_cons.mpr ⟨hfresh, hfit⟩, by simp⟩
    · rintro ⟨_, ⟨e, edges, he, hedges, rfl⟩, hfit, rfl⟩
      obtain ⟨hfresh, hrest⟩ := edgesFit_cons.mp hfit
      exact ⟨e, he, hfresh, edges, hedges, hrest, by simp⟩

/-! ### Parents -/

/-- An edge from the node of an artifact to that of a parent. -/
structure IsParentEdge (s : ReasoningState) (artifact : ReasoningArtifact) (node : GraphNode)
    (context : ArtifactEventContext) (parent : UUID × ParentRelationship) (e : GraphEdge) : Prop where
  ordinary : parent.2.edgeType ≠ .supersedes
  edge : ∃ target, s.node? artifact.workspaceId artifact.sessionId parent.2.targetArtifactId = some target
    ∧ relationshipEdge artifact node context (parent.2, parent.1, target) = .ok e

/-- The targets are looked up first and the edges drawn after, but it comes to one edge a parent. -/
theorem parentEdges_iff {artifact : ReasoningArtifact} {node : GraphNode}
    {context : ArtifactEventContext} {edgeIds : List UUID} {edges : List GraphEdge} :
    (∃ targets, s.relationshipTargets artifact edgeIds = .ok targets
        ∧ (artifact.parentRelationships.zip targets).mapM (relationshipEdge artifact node context)
          = .ok edges)
      ↔ edgeIds.length = artifact.parentRelationships.length
        ∧ List.Forall₂ (IsParentEdge s artifact node context)
          (edgeIds.zip artifact.parentRelationships) edges := by
  unfold ReasoningState.relationshipTargets
  by_cases hlength : edgeIds.length = artifact.parentRelationships.length
  · rw [if_neg (by simpa using hlength)]
    simp only [Except.mapM_eq_ok_iff, hlength, true_and]
    generalize artifact.parentRelationships = parents at hlength
    induction parents generalizing edgeIds edges with
    | nil => simp
    | cons parent parents ih =>
      obtain ⟨edgeId, edgeIds, rfl⟩ := List.exists_cons_of_length_eq_add_one hlength
      have ih := @ih edgeIds
      simp only [List.zip_cons_cons, List.forall₂_cons_left_iff]
      constructor
      · rintro ⟨_, ⟨⟨id, target⟩, targets, htarget, htargets, rfl⟩, hedges⟩
        rw [List.zip_cons_cons, List.forall₂_cons_left_iff] at hedges
        obtain ⟨e, edges, he, hedges, rfl⟩ := hedges
        refine ⟨e, edges, ?_, (ih (by simpa using hlength)).mp ⟨targets, htargets, hedges⟩, rfl⟩
        split_ifs at htarget with htype
        cases hnode : s.node? artifact.workspaceId artifact.sessionId parent.targetArtifactId with
        | none => simp [hnode] at htarget
        | some v =>
          obtain ⟨rfl, rfl⟩ : edgeId = id ∧ v = target := by simpa [hnode] using htarget
          exact ⟨htype, v, hnode, he⟩
      · rintro ⟨e, edges, ⟨htype, target, hnode, he⟩, hedges, rfl⟩
        obtain ⟨targets, htargets, hedges⟩ := (ih (by simpa using hlength)).mpr hedges
        refine ⟨(edgeId, target) :: targets, ⟨(edgeId, target), targets, ?_, htargets, rfl⟩, ?_⟩
        · simp only [if_neg htype, hnode]
        · exact List.Forall₂.cons he hedges
  · rw [if_pos hlength]
    simp [hlength]

/-! ### Artifacts with their projections -/

/-- The state with one more artifact, its node and some edges. -/
def ReasoningState.extend (s : ReasoningState) (artifact : ReasoningArtifact) (node : GraphNode)
    (edges : List GraphEdge) (ledger : Ledger.LedgerState) : ReasoningState where
  artifacts := s.artifacts ++ [artifact]
  nodes := s.nodes ++ [node]
  edges := s.edges ++ edges
  ledger := ledger

/-- An artifact can be added, with its node and its edges to parents. -/
structure Projects (db : ReasoningDatabase) (s : ReasoningState) (artifact : ReasoningArtifact)
    (nodeId : UUID) (edgeIds : List UUID) (label : String) (context : ArtifactEventContext)
    (node : GraphNode) (edges : List GraphEdge) : Prop where
  fresh : s.freshArtifact artifact = true
  accepted : db.acceptsArtifact artifact = true
  projected : graphNode artifact nodeId label = .ok node
  fresh_node : s.freshNode node = true
  accepted_node : db.acceptsNode node = true
  parents : edgeIds.length = artifact.parentRelationships.length
  drawn : List.Forall₂ (IsParentEdge s artifact node context)
    (edgeIds.zip artifact.parentRelationships) edges
  fit : EdgesFit db s.edges edges

theorem commit_ok {artifact : ReasoningArtifact} {nodeId : UUID} {edgeIds : List UUID} {label : String}
    {context : ArtifactEventContext} {r : ArtifactWriteResult} :
    commit db artifact nodeId edgeIds label context s = (.ok r, s')
      ↔ (artifact.version = 1 ∧ artifact.supersedesId = none ∧ artifact.status = .active)
        ∧ ∃ node edges event e ledger,
          Projects db s artifact nodeId edgeIds label context node edges
            ∧ artifactEvent artifact context committedType artifact.eventEntries = .ok event
            ∧ Ledger.append db.ledger event s.ledger = (.ok e, ledger)
            ∧ r = ⟨artifact, e⟩ ∧ s' = s.extend artifact node edges ledger := by
  unfold commit
  split_ifs with hversion hstatus
  · simp only [raise_apply, Prod.mk.injEq, reduceCtorEq, false_and, false_iff, not_and]
    rintro ⟨h1, h2, -⟩
    simp [h1, h2] at hversion
  · simp [hstatus]
  · have hhead : artifact.version = 1 ∧ artifact.supersedesId = none ∧ artifact.status = .active := by
      simpa [and_assoc] using And.intro hversion hstatus
    simp only [hhead, true_and, query_bind_eq_ok, lift_bind_eq_ok, addArtifact, addNode, flush_bind,
      Bool.and_eq_true]
    constructor
    · rintro ⟨targets, htargets, hartifact, node, hnode, hfresh, hrest⟩
      obtain ⟨_, t, hedges, hrest⟩ := bind_eq_ok.mp hrest
      obtain ⟨edges, hmapped, hfit, rfl⟩ := addRelationships_ok.mp hedges
      obtain ⟨event, hevent, hrest⟩ := lift_bind_eq_ok.mp hrest
      obtain ⟨e, ledger, happend, hrest⟩ := appendEvent_bind.mp hrest
      obtain ⟨hlength, hparents⟩ := parentEdges_iff.mp ⟨targets, htargets, hmapped⟩
      obtain ⟨hr, rfl⟩ := Prod.mk.inj hrest
      exact ⟨node, edges, event, e, ledger, ⟨hartifact.1, hartifact.2, hnode, hfresh.1, hfresh.2, hlength,
        hparents, hfit⟩, hevent, happend, (Except.ok.inj hr).symm, rfl⟩
    · rintro ⟨node, edges, event, e, ledger, h, hevent, happend, rfl, rfl⟩
      obtain ⟨targets, htargets, hedges⟩ := parentEdges_iff.mpr ⟨h.parents, h.drawn⟩
      refine ⟨targets, htargets, ⟨h.fresh, h.accepted⟩, node, h.projected, ⟨h.fresh_node, h.accepted_node⟩, ?_⟩
      refine bind_eq_ok.mpr ⟨(), _, addRelationships_ok.mpr ⟨edges, hedges, h.fit, rfl⟩, ?_⟩
      exact lift_bind_eq_ok.mpr ⟨event, hevent, appendEvent_bind.mpr ⟨e, ledger, happend, rfl⟩⟩

/-! ### Revisions -/

/-- The predecessor is active, of the same kind, and one version behind. -/
structure IsPredecessor (s : ReasoningState) (artifact : ReasoningArtifact) (supersedesId : UUID)
    (previous : ReasoningArtifact) (node : GraphNode) : Prop where
  found : s.artifact? artifact.workspaceId artifact.sessionId supersedesId = some previous
  active : previous.status = .active
  logicalId : previous.logicalId = artifact.logicalId
  kind : previous.kind = artifact.kind
  version : previous.version + 1 = artifact.version
  node : s.node? previous.workspaceId previous.sessionId previous.id = some node

theorem predecessor_ok {artifact previous : ReasoningArtifact} {supersedesId : UUID} {node : GraphNode} :
    s.predecessor artifact supersedesId = .ok (previous, node)
      ↔ IsPredecessor s artifact supersedesId previous node := by
  unfold ReasoningState.predecessor
  constructor
  · intro h
    split at h
    · cases h
    · rename_i found hfound
      split_ifs at h with hstatus hfollows
      split at h
      · cases h
      · rename_i v hv
        obtain ⟨rfl, rfl⟩ := Prod.mk.inj (Except.ok.inj h)
        rw [not_or, not_or, not_not, not_not, not_not] at hfollows
        exact ⟨hfound, not_not.mp hstatus, hfollows.1, hfollows.2.1, hfollows.2.2, hv⟩
  · intro h
    simp [h.found, h.active, h.logicalId, h.kind, h.version, h.node]

/-- What `artifact?` finds. -/
theorem artifact?_some {w n id : UUID} {a : ReasoningArtifact} (h : s.artifact? w n id = some a) :
    a ∈ s.artifacts ∧ a.workspaceId = w ∧ a.sessionId = n ∧ a.id = id := by
  refine ⟨List.mem_of_find?_eq_some h, ?_⟩
  simpa using List.find?_some h

theorem node?_some {w n id : UUID} {v : GraphNode} (h : s.node? w n id = some v) :
    v ∈ s.nodes ∧ v.workspaceId = w ∧ v.sessionId = n ∧ v.refId = id := by
  refine ⟨List.mem_of_find?_eq_some h, ?_⟩
  simpa using List.find?_some h

/-- An artifact that is found is found also when there are more. -/
theorem artifact?_append {w n id : UUID} {a : ReasoningArtifact} (h : s.artifact? w n id = some a)
    (more : List ReasoningArtifact) :
    { s with artifacts := s.artifacts ++ more }.artifact? w n id = some a := by
  unfold ReasoningState.artifact? at h ⊢
  rw [List.find?_append, h]
  rfl

theorem freshArtifact_iff {a : ReasoningArtifact} : s.freshArtifact a = true
    ↔ ∀ b ∈ s.artifacts, b.id ≠ a.id ∧ b.revisionKey ≠ a.revisionKey := by
  simp [ReasoningState.freshArtifact]

/-- A new artifact is not the one that is marked. -/
theorem mark_append {artifact previous : ReasoningArtifact} (hfresh : s.freshArtifact artifact = true)
    (hprevious : previous ∈ s.artifacts) (status : LifecycleStatus) (updatedAt : Datetime) :
    { s with artifacts := s.artifacts ++ [artifact] }.mark previous.id status updatedAt
      = { s.mark previous.id status updatedAt with
          artifacts := (s.mark previous.id status updatedAt).artifacts ++ [artifact] } := by
  have hother : artifact.id ≠ previous.id := (freshArtifact_iff.mp hfresh previous hprevious).1.symm
  simp [ReasoningState.mark, ReasoningArtifact.marked, hother]

/-- A revision can be added, with its node and edges, and its predecessor superseded. -/
structure Revises (db : ReasoningDatabase) (s : ReasoningState) (artifact : ReasoningArtifact)
    (nodeId edgeId : UUID) (edgeIds : List UUID) (label reason : String)
    (context : ArtifactEventContext) (previous : ReasoningArtifact) (previousNode node : GraphNode)
    (edges : List GraphEdge) (edge : GraphEdge) : Prop where
  supersedes : artifact.supersedesId = some previous.id
  version : 1 < artifact.version
  active : artifact.status = .active
  explained : isBlank reason = false
  predecessor : IsPredecessor s artifact previous.id previous previousNode
  projects : Projects db s artifact nodeId edgeIds label context node edges
  superseded : previous.mayBecome .superseded context.recordedAt = true
  drawn : graphEdge artifact edgeId node.id previousNode.id .supersedes
    (.obj [(.ofString "reason", .text reason)]) context = .ok edge
  fresh_edge : ∀ f ∈ s.edges ++ edges, f.Separate edge
  accepted_edge : db.acceptsEdge edge = true

/-- The payload entries of the event of a revision. -/
def revisionEntries (artifact previous : ReasoningArtifact) (reason : String) : List (PyStr × Json) :=
  artifact.eventEntries
    ++ [(.ofString "supersedes_id", .text previous.id.text), (.ofString "reason", .text reason)]

theorem revise_ok {artifact : ReasoningArtifact} {nodeId edgeId : UUID} {edgeIds : List UUID}
    {label reason : String} {context : ArtifactEventContext} {r : ArtifactWriteResult} :
    revise db artifact nodeId edgeId edgeIds label reason context s = (.ok r, s')
      ↔ ∃ previous previousNode node edges edge event e ledger,
        Revises db s artifact nodeId edgeId edgeIds label reason context previous previousNode node
            edges edge
          ∧ artifactEvent artifact context revisedType (revisionEntries artifact previous reason)
            = .ok event
          ∧ Ledger.append db.ledger event s.ledger = (.ok e, ledger)
          ∧ r = ⟨artifact, e⟩
          ∧ s' = (s.mark previous.id .superseded context.recordedAt).extend artifact node
              (edges ++ [edge]) ledger := by
  unfold revise
  constructor
  · intro h
    cases hsupersedes : artifact.supersedesId with
    | none => simp [hsupersedes] at h
    | some supersedesId =>
      simp only [hsupersedes] at h
      split_ifs at h with hversion hstatus hreason
      · cases h
      · cases h
      · cases h
      obtain ⟨⟨previous, previousNode⟩, hprevious, h⟩ := query_bind_eq_ok.mp h
      have hprevious := predecessor_ok.mp hprevious
      obtain ⟨hmem, hw, hn, hid⟩ := artifact?_some hprevious.found
      obtain ⟨targets, htargets, h⟩ := query_bind_eq_ok.mp h
      obtain ⟨hartifact, h⟩ := flush_bind.mp h
      rw [Bool.and_eq_true] at hartifact
      obtain ⟨⟨row, hrow, hmay⟩, h⟩ := setLifecycle_bind.mp h
      rw [hw, hn, hid, artifact?_append hprevious.found] at hrow
      obtain rfl := Option.some.inj hrow
      rw [mark_append hartifact.1 hmem] at h
      obtain ⟨node, hnode, h⟩ := lift_bind_eq_ok.mp h
      obtain ⟨hfresh, h⟩ := flush_bind.mp h
      rw [Bool.and_eq_true] at hfresh
      obtain ⟨_, t, hedges, h⟩ := bind_eq_ok.mp h
      obtain ⟨edges, hmapped, hfit, rfl⟩ := addRelationships_ok.mp hedges
      obtain ⟨edge, hedge, h⟩ := lift_bind_eq_ok.mp h
      obtain ⟨hfreshEdge, h⟩ := flush_bind.mp h
      rw [Bool.and_eq_true, freshEdge_iff] at hfreshEdge
      obtain ⟨event, hevent, h⟩ := lift_bind_eq_ok.mp h
      obtain ⟨e, ledger, happend, h⟩ := appendEvent_bind.mp h
      obtain ⟨hlength, hparents⟩ := parentEdges_iff.mp ⟨targets, htargets, hmapped⟩
      obtain ⟨hr, rfl⟩ := Prod.mk.inj h
      have hprojects : Projects db s artifact nodeId edgeIds label context node edges :=
        ⟨hartifact.1, hartifact.2, hnode, hfresh.1, hfresh.2, hlength, hparents, hfit⟩
      subst hid
      refine ⟨previous, previousNode, node, edges, edge, event, e, ledger, ?_, hevent, happend,
        (Except.ok.inj hr).symm, ?_⟩
      · exact ⟨hsupersedes, not_le.mp hversion, not_not.mp hstatus, by simpa using hreason, hprevious,
          hprojects, hmay, hedge, hfreshEdge.1, hfreshEdge.2⟩
      · simp [ReasoningState.extend]
  · rintro ⟨previous, previousNode, node, edges, edge, event, e, ledger, h, hevent, happend, rfl, rfl⟩
    obtain ⟨hmem, hw, hn, -⟩ := artifact?_some h.predecessor.found
    obtain ⟨targets, htargets, hmapped⟩ := parentEdges_iff.mpr ⟨h.projects.parents, h.projects.drawn⟩
    simp only [h.supersedes, if_neg (not_le.mpr h.version), h.active, ne_eq, not_true_eq_false, if_false,
      h.explained, Bool.false_eq_true]
    refine query_bind_eq_ok.mpr ⟨(previous, previousNode), predecessor_ok.mpr h.predecessor, ?_⟩
    refine query_bind_eq_ok.mpr ⟨targets, htargets, ?_⟩
    refine flush_bind.mpr ⟨by rw [h.projects.fresh, h.projects.accepted]; rfl, ?_⟩
    refine setLifecycle_bind.mpr ⟨⟨previous, ?_, h.superseded⟩, ?_⟩
    · rw [hw, hn]
      exact artifact?_append h.predecessor.found _
    · rw [mark_append h.projects.fresh hmem]
      refine lift_bind_eq_ok.mpr ⟨node, h.projects.projected, ?_⟩
      refine flush_bind.mpr ⟨?_, ?_⟩
      · exact Bool.and_eq_true _ _ ▸ ⟨h.projects.fresh_node, h.projects.accepted_node⟩
      refine bind_eq_ok.mpr ⟨(), _, addRelationships_ok.mpr ⟨edges, hmapped, h.projects.fit, rfl⟩, ?_⟩
      refine lift_bind_eq_ok.mpr ⟨edge, h.drawn, ?_⟩
      refine flush_bind.mpr ⟨?_, ?_⟩
      · exact Bool.and_eq_true _ _ ▸ ⟨freshEdge_iff.mpr h.fresh_edge, h.accepted_edge⟩
      refine lift_bind_eq_ok.mpr ⟨event, hevent, appendEvent_bind.mpr ⟨e, ledger, happend, ?_⟩⟩
      simp [ReasoningState.extend]

/-! ### Withdrawals -/

/-- An artifact may be withdrawn. -/
structure Withdraws (s : ReasoningState) (workspaceId sessionId artifactId : UUID) (reason : String)
    (warrantArtifactIds : List UUID) (context : ArtifactEventContext) (artifact : ReasoningArtifact) :
    Prop where
  explained : isBlank reason = false
  warranted : warrantArtifactIds ≠ []
  distinct : warrantArtifactIds.Nodup
  known : ∀ id ∈ warrantArtifactIds, (s.node? workspaceId sessionId id).isSome
  found : s.artifact? workspaceId sessionId artifactId = some artifact
  active : artifact.status = .active
  withdrawn : artifact.mayBecome .withdrawn context.recordedAt = true

/-- The payload entries of the event of a withdrawal. -/
def withdrawalEntries (artifact : ReasoningArtifact) (reason : String) (warrantArtifactIds : List UUID) :
    List (PyStr × Json) :=
  artifact.eventEntries ++ [(.ofString "reason", .text reason),
    (.ofString "warrant_artifact_ids", uuids warrantArtifactIds)]

theorem withdrawable_ok {w n id : UUID} {warrants : List UUID} {a : ReasoningArtifact} :
    s.withdrawable w n id warrants = .ok a ↔ (∀ i ∈ warrants, (s.node? w n i).isSome)
      ∧ s.artifact? w n id = some a ∧ a.status = .active := by
  unfold ReasoningState.withdrawable
  rw [Except.bind_eq_ok]
  constructor
  · rintro ⟨_, hknown, h⟩
    refine ⟨fun i hi => ?_, ?_⟩
    · have hi := Except.forM_eq_ok_iff.mp hknown i hi
      split_ifs at hi with hnone
      exact Option.isSome_iff_ne_none.mpr fun h => hnone (by rw [h]; rfl)
    · cases hfound : s.artifact? w n id with
      | none => simp [hfound] at h
      | some found =>
        simp only [hfound] at h
        split_ifs at h with hstatus
        obtain rfl := Except.ok.inj h
        exact ⟨rfl, not_not.mp hstatus⟩
  · rintro ⟨hknown, hfound, hactive⟩
    refine ⟨(), Except.forM_eq_ok_iff.mpr fun i hi => ?_, by simp [hfound, hactive]⟩
    rw [if_neg]
    simpa [Option.isSome_iff_ne_none] using hknown i hi

theorem withdraw_ok {w n id : UUID} {reason : String} {warrants : List UUID}
    {context : ArtifactEventContext} {r : ArtifactWriteResult} :
    withdraw db w n id reason warrants context s = (.ok r, s') ↔ ∃ artifact event e ledger,
      Withdraws s w n id reason warrants context artifact
        ∧ artifactEvent (artifact.withStatus .withdrawn context.recordedAt) context withdrawnType
            (withdrawalEntries artifact reason warrants) = .ok event
        ∧ Ledger.append db.ledger event s.ledger = (.ok e, ledger)
        ∧ r = ⟨artifact.withStatus .withdrawn context.recordedAt, e⟩
        ∧ s' = { s.mark id .withdrawn context.recordedAt with ledger } := by
  unfold withdraw
  constructor
  · intro h
    split_ifs at h with hreason hwarranted hdistinct
    · cases h
    · cases h
    · obtain ⟨artifact, hfound, h⟩ := query_bind_eq_ok.mp h
      obtain ⟨hknown, hfound, hactive⟩ := withdrawable_ok.mp hfound
      obtain ⟨⟨row, hrow, hmay⟩, h⟩ := setLifecycle_bind.mp h
      obtain ⟨-, hw, hn, hid⟩ := artifact?_some hfound
      rw [hw, hn, hid, hfound] at hrow
      obtain rfl := Option.some.inj hrow
      obtain ⟨event, hevent, h⟩ := lift_bind_eq_ok.mp h
      obtain ⟨e, ledger, happend, h⟩ := appendEvent_bind.mp h
      obtain ⟨hr, rfl⟩ := Prod.mk.inj h
      subst hid
      refine ⟨artifact, event, e, ledger, ?_, hevent, happend, (Except.ok.inj hr).symm, rfl⟩
      exact ⟨by simpa using hreason, hwarranted, hdistinct, hknown, hfound, hactive, hmay⟩
    · cases h
  · rintro ⟨artifact, event, e, ledger, h, hevent, happend, rfl, rfl⟩
    obtain ⟨-, rfl, rfl, rfl⟩ := artifact?_some h.found
    simp only [h.explained, h.warranted, h.distinct, not_true_eq_false, if_false, Bool.false_eq_true]
    refine query_bind_eq_ok.mpr ⟨artifact, withdrawable_ok.mpr ⟨h.known, h.found, h.active⟩, ?_⟩
    refine setLifecycle_bind.mpr ⟨⟨artifact, h.found, h.withdrawn⟩, ?_⟩
    exact lift_bind_eq_ok.mpr ⟨event, hevent, appendEvent_bind.mpr ⟨e, ledger, happend, rfl⟩⟩

open Ledger (LedgerState samePreimage)

/-! ### The events of artifacts

Every event of an artifact names it in its payload (`Names`), and an event names one artifact only.
The ledger answers an append of a stored event with that event, so a stored event is one of the same
artifact (`names_of_append`). -/

/-- The payload of the event has the id of the artifact. -/
def Names (e : LedgerAppend) (id : UUID) : Prop :=
  (.ofString "artifact_id", .text id.text) ∈ e.payload.entries

/-- The keys of a payload are distinct. -/
theorem nodup_keys (p : Ledger.Payload) : (p.entries.map Prod.fst).Nodup := by
  have h := p.normal
  simp only [Json.Normal, Json.allObjects, Bool.and_eq_true, decide_eq_true_eq] at h
  exact h.1.1

/-- An event names one artifact. -/
theorem Names.unique {e : LedgerAppend} {id id' : UUID} (h : Names e id) (h' : Names e id') :
    id = id' := by
  have heq := List.inj_on_of_nodup_map (nodup_keys e.payload) h h' rfl
  exact UUID.ext (Ledger.text_injective (congrArg Prod.snd heq))

/-- Events that the ledger takes for the same one name the same artifact. -/
theorem Names.of_samePreimage {e f : LedgerAppend} {id : UUID} (h : samePreimage e f = true)
    (hnames : Names e id) : Names f id := by
  simp only [samePreimage, Bool.and_eq_true, Ledger.Payload.json, Json.pyEq] at h
  exact Json.mem_str_of_pyEqEntries h.2 hnames

theorem eventType_eq_of_samePreimage {e f : LedgerAppend} (h : samePreimage e f = true) :
    e.eventType = f.eventType := by
  simp only [samePreimage, Bool.and_eq_true, decide_eq_true_eq] at h
  exact h.1.1.1.1.1.1.1.2

/-- What a validated payload has. -/
theorem jsonPayload_ok {entries : List (PyStr × Json)} {p : Ledger.Payload}
    (h : Ledger.jsonPayload entries = .ok p) : p.entries = entries := by
  unfold Ledger.jsonPayload at h
  split_ifs at h
  obtain rfl := Except.ok.inj h
  rfl

/-- The values of the event of an artifact. -/
structure IsArtifactEvent (artifact : ReasoningArtifact) (context : ArtifactEventContext)
    (eventType : Ledger.NonBlank) (event : LedgerAppend) : Prop where
  id : event.id = context.eventId
  workspaceId : event.workspaceId = artifact.workspaceId
  sessionId : event.sessionId = artifact.sessionId
  eventType : event.eventType = eventType
  payloadSchemaVersion : event.payloadSchemaVersion = 1
  causationId : event.causationId = context.causationId
  correlationId : event.correlationId = context.correlationId
  actorClass : event.actorClass = context.actorClass
  actorId : event.actorId = context.actorId
  round : event.round = artifact.round
  recordedAt : event.recordedAt = context.recordedAt

theorem artifactEvent_ok {artifact : ReasoningArtifact} {context : ArtifactEventContext}
    {eventType : Ledger.NonBlank} {payload : List (PyStr × Json)} {event : LedgerAppend}
    (h : artifactEvent artifact context eventType payload = .ok event) :
    IsArtifactEvent artifact context eventType event
      ∧ event.payload.entries = sortByKey (payload ++ artifact.metadataEntry "attribution"
        ++ artifact.metadataEntry "evidence_disposition") := by
  obtain ⟨p, hp, h⟩ := Except.bind_eq_ok.mp h
  obtain rfl := Except.ok.inj h
  exact ⟨⟨rfl, rfl, rfl, rfl, rfl, rfl, rfl, rfl, rfl, rfl, rfl⟩, jsonPayload_ok hp⟩

/-- The event of an artifact names it. -/
theorem names_artifactEvent {artifact a : ReasoningArtifact} {context : ArtifactEventContext}
    {eventType : Ledger.NonBlank} {more : List (PyStr × Json)} {event : LedgerAppend}
    (h : artifactEvent a context eventType (artifact.eventEntries ++ more) = .ok event) :
    Names event artifact.id := by
  unfold Names
  rw [(artifactEvent_ok h).2, (sortByKey_perm _).mem_iff]
  simp [ReasoningArtifact.eventEntries]

/-- **Appends.**  An event that names an artifact is new, or a stored event of its type names it. -/
theorem names_of_append {event : LedgerAppend} {e : LedgerEvent} {ledger ledger' : LedgerState}
    {id : UUID} (hnames : Names event id)
    (h : Ledger.append db.ledger event ledger = (.ok e, ledger')) :
    Names e.toLedgerAppend id ∧ e.eventType = event.eventType
      ∧ (e ∈ ledger.events ∨ ledger' = ledger.insert e ∧ e.toLedgerAppend = event) := by
  rcases Ledger.append_eq_ok h with ⟨-, hstored, hsame⟩ | ⟨hinsert, -, rfl⟩
  · exact ⟨hnames.of_samePreimage hsame, (eventType_eq_of_samePreimage hsame).symm,
      .inl (List.mem_of_find?_eq_some hstored)⟩
  · exact ⟨hnames, rfl, .inr ⟨hinsert, rfl⟩⟩

end Agora.Artifacts
