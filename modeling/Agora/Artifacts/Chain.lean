import Agora.Artifacts.Effects
import Agora.Lib.VersionChain

namespace Agora.Artifacts

open Ledger (LedgerAppend LedgerEvent LedgerState)
open Impact (ArtifactKind)

/-!
# Chains of versions in the tables

The invariant of the four tables (`Sound`) and that each operation keeps it:

* `chain_mark`, `chain_extend`: what an operation does to the versions of one thing;
* `Sound.commit`, `Sound.revise`, `Sound.withdraw`: one step each, with the event it appends.
-/

variable {db : ReasoningDatabase} {s s' : ReasoningState}

/-! ### Versions -/

/-- The versions of one thing in a session, in the order they were added. -/
def ReasoningState.chain (s : ReasoningState) (workspaceId sessionId logicalId : UUID) :
    List ReasoningArtifact :=
  s.artifacts.filter fun a =>
    a.workspaceId = workspaceId ∧ a.sessionId = sessionId ∧ a.logicalId = logicalId

/-- Artifacts as versions. -/
def artifactVersions : Versioned ReasoningArtifact UUID ArtifactKind where
  version a := a.version
  id a := a.id
  previous a := a.supersedesId
  key a := a.kind
  superseded a := a.status = .superseded

theorem mem_chain {w n l : UUID} {a : ReasoningArtifact} : a ∈ s.chain w n l
    ↔ a ∈ s.artifacts ∧ a.workspaceId = w ∧ a.sessionId = n ∧ a.logicalId = l := by
  simp [ReasoningState.chain]

/-- A version is in the chain of its own keys. -/
theorem mem_chain_self {a : ReasoningArtifact} (ha : a ∈ s.artifacts) :
    a ∈ s.chain a.workspaceId a.sessionId a.logicalId :=
  mem_chain.mpr ⟨ha, rfl, rfl, rfl⟩

theorem same_withStatus (a : ReasoningArtifact) (status : LifecycleStatus) (updatedAt : Datetime) :
    artifactVersions.Same a (a.withStatus status updatedAt) := ⟨rfl, rfl, rfl, rfl⟩

theorem chain_extend (a : ReasoningArtifact) (node : GraphNode) (edges : List GraphEdge)
    (ledger : LedgerState) (w n l : UUID) : (s.extend a node edges ledger).chain w n l
      = s.chain w n l
        ++ if a.workspaceId = w ∧ a.sessionId = n ∧ a.logicalId = l then [a] else [] := by
  by_cases h : a.workspaceId = w ∧ a.sessionId = n ∧ a.logicalId = l
    <;> simp [ReasoningState.chain, ReasoningState.extend, List.filter_append, h]

/-- Marking does not change which artifacts are in a chain. -/
theorem chain_mark_eq_map (id : UUID) (status : LifecycleStatus) (updatedAt : Datetime) (w n l : UUID) :
    (s.mark id status updatedAt).chain w n l = (s.chain w n l).map (·.marked id status updatedAt) := by
  unfold ReasoningState.chain ReasoningState.mark
  rw [List.filter_map]
  congr 1
  apply List.filter_congr
  intro a _
  simp

/-- What has another id stays as it is. -/
theorem map_marked_eq_self {l : List ReasoningArtifact} {id : UUID} {status : LifecycleStatus}
    {updatedAt : Datetime} (h : ∀ a ∈ l, a.id ≠ id) : l.map (·.marked id status updatedAt) = l := by
  rw [List.map_congr_left (g := fun a => a), List.map_id']
  intro a ha
  exact if_neg (h a ha)

/-! ### The invariant -/

/-- The edge leads from the node of a revision to that of its predecessor. -/
structure IsSupersedesEdge (nodes : List GraphNode) (e : GraphEdge) (a : ReasoningArtifact) : Prop where
  workspaceId : e.workspaceId = a.workspaceId
  sessionId : e.sessionId = a.sessionId
  revision : ∃ v ∈ nodes, v.id = e.fromNode ∧ v.workspaceId = a.workspaceId
    ∧ v.sessionId = a.sessionId ∧ v.refId = a.id
  predecessor : ∃ v ∈ nodes, v.id = e.toNode ∧ v.workspaceId = a.workspaceId
    ∧ v.sessionId = a.sessionId ∧ some v.refId = a.supersedesId

def ReasoningState.supersedesEdges (s : ReasoningState) : List GraphEdge :=
  s.edges.filter (·.edgeType = .supersedes)

def ReasoningState.revisions (s : ReasoningState) : List ReasoningArtifact :=
  s.artifacts.filter (·.supersedesId.isSome)

/-- The rows of the four tables belong together. -/
structure TablesAgree (s : ReasoningState) : Prop where
  ids : (s.artifacts.map (·.id)).Nodup
  nodes : s.nodes.map GraphNode.projection = s.artifacts.map ReasoningArtifact.projection
  edges : List.Forall₂ (IsSupersedesEdge s.nodes) s.supersedesEdges s.revisions
  written : ∀ e ∈ s.ledger.events, e.eventType = committedType ∨ e.eventType = revisedType →
    ∃ a ∈ s.artifacts, Names e.toLedgerAppend a.id
  withdrawn : ∀ e ∈ s.ledger.events, e.eventType = withdrawnType →
    ∃ a ∈ s.artifacts, a.status = .withdrawn ∧ Names e.toLedgerAppend a.id

structure Sound (s : ReasoningState) : Prop extends TablesAgree s where
  chain : ∀ w n l, IsVersionChain artifactVersions (s.chain w n l)

theorem TablesAgree.eq_of_id (h : TablesAgree s) {a b : ReasoningArtifact} (ha : a ∈ s.artifacts)
    (hb : b ∈ s.artifacts) (hid : a.id = b.id) : a = b :=
  List.inj_on_of_nodup_map h.ids ha hb hid

/-- **Marking.**  The newest version of its chain changes its status, and no other chain changes. -/
theorem Sound.chain_mark (h : Sound s) {a : ReasoningArtifact} (ha : a ∈ s.artifacts)
    (hactive : a.status = .active) (status : LifecycleStatus) (updatedAt : Datetime) (w n l : UUID) :
    (∃ earlier, s.chain w n l = earlier ++ [a]
        ∧ (s.mark a.id status updatedAt).chain w n l = earlier ++ [a.withStatus status updatedAt]
        ∧ a.workspaceId = w ∧ a.sessionId = n ∧ a.logicalId = l)
      ∨ (s.mark a.id status updatedAt).chain w n l = s.chain w n l
        ∧ ¬ (a.workspaceId = w ∧ a.sessionId = n ∧ a.logicalId = l) := by
  rw [chain_mark_eq_map]
  have hids : ((s.chain w n l).map (·.id)).Nodup := h.ids.sublist (List.filter_sublist.map _)
  by_cases hkey : a.workspaceId = w ∧ a.sessionId = n ∧ a.logicalId = l
  · have hcurrent : ¬ artifactVersions.superseded a := by
      show a.status ≠ .superseded
      simp [hactive]
    obtain ⟨earlier, hchain⟩ := (h.chain w n l).eq_concat (mem_chain.mpr ⟨ha, hkey⟩) hcurrent
    refine .inl ⟨earlier, hchain, ?_, hkey⟩
    rw [hchain, List.map_append, List.nodup_append] at hids
    rw [hchain, List.map_append, map_marked_eq_self]
    · simp [ReasoningArtifact.marked]
    · intro b hb hid
      exact hids.2.2 b.id (List.mem_map_of_mem hb) a.id (by simp) hid
  · refine .inr ⟨map_marked_eq_self fun b hb hid => ?_, hkey⟩
    obtain ⟨hb, hkeys⟩ := mem_chain.mp hb
    obtain rfl := h.eq_of_id hb ha hid
    exact hkey hkeys

/-! ### Rows -/

/-- No edge to a parent is of the type SUPERSEDES. -/
theorem filter_parentEdges {artifact : ReasoningArtifact} {node : GraphNode}
    {context : ArtifactEventContext} {parents : List (UUID × ParentRelationship)} {edges : List GraphEdge}
    (h : List.Forall₂ (IsParentEdge s artifact node context) parents edges) :
    edges.filter (·.edgeType = .supersedes) = [] := by
  induction h with
  | nil => rfl
  | cons hedge hrest ih =>
    obtain ⟨target, -, hdrawn⟩ := hedge.edge
    rw [List.filter_cons_of_neg, ih]
    simpa [(graphEdge_ok hdrawn).edgeType] using hedge.ordinary

theorem IsSupersedesEdge.mono {nodes nodes' : List GraphNode} (hsub : nodes ⊆ nodes') {e : GraphEdge}
    {a : ReasoningArtifact} (h : IsSupersedesEdge nodes e a) : IsSupersedesEdge nodes' e a where
  workspaceId := h.workspaceId
  sessionId := h.sessionId
  revision := h.revision.imp fun _ hv => ⟨hsub hv.1, hv.2⟩
  predecessor := h.predecessor.imp fun _ hv => ⟨hsub hv.1, hv.2⟩

/-- Marking keeps the tables. -/
theorem TablesAgree.mark (h : TablesAgree s) {a : ReasoningArtifact} (ha : a ∈ s.artifacts)
    (hactive : a.status = .active) (status : LifecycleStatus) (updatedAt : Datetime) :
    TablesAgree (s.mark a.id status updatedAt) where
  ids := by
    have hids : (s.mark a.id status updatedAt).artifacts.map (·.id) = s.artifacts.map (·.id) := by
      simp [ReasoningState.mark, Function.comp_def]
    rw [hids]
    exact h.ids
  nodes := by
    rw [show (s.mark a.id status updatedAt).nodes = s.nodes from rfl, h.nodes]
    simp [ReasoningState.mark, Function.comp_def, ReasoningArtifact.projection, ArtifactFields.kind]
  edges := by
    have hrevisions : (s.mark a.id status updatedAt).revisions
        = s.revisions.map (·.marked a.id status updatedAt) := by
      unfold ReasoningState.revisions ReasoningState.mark
      rw [List.filter_map]
      congr 1
      apply List.filter_congr
      intro b _
      simp
    rw [hrevisions, List.forall₂_map_right_iff]
    refine h.edges.imp fun e b he => ?_
    refine ⟨?_, ?_, ?_, ?_⟩
    · simpa using he.workspaceId
    · simpa using he.sessionId
    · simpa [ReasoningState.mark] using he.revision
    · simpa [ReasoningState.mark] using he.predecessor
  written := by
    intro e he htype
    obtain ⟨b, hb, hnames⟩ := h.written e he htype
    exact ⟨b.marked a.id status updatedAt, List.mem_map_of_mem hb, by simpa using hnames⟩
  withdrawn := by
    intro e he htype
    obtain ⟨b, hb, hstatus, hnames⟩ := h.withdrawn e he htype
    -- What has been withdrawn is not the active artifact.
    have hother : b.id ≠ a.id := by
      intro hid
      obtain rfl := h.eq_of_id hb ha hid
      simp [hactive] at hstatus
    refine ⟨b.marked a.id status updatedAt, List.mem_map_of_mem hb, ?_, by simpa using hnames⟩
    simpa [ReasoningArtifact.marked, hother] using hstatus

/-- Adding an artifact with its projections and its event keeps the tables. -/
theorem TablesAgree.extend (h : TablesAgree s) {artifact : ReasoningArtifact} {node : GraphNode}
    {edges : List GraphEdge} {e : LedgerEvent} (hid : ∀ b ∈ s.artifacts, b.id ≠ artifact.id)
    (hnode : node.projection = artifact.projection)
    (hedges : List.Forall₂ (IsSupersedesEdge (s.nodes ++ [node]))
      (edges.filter (·.edgeType = .supersedes)) ([artifact].filter (·.supersedesId.isSome)))
    (htype : e.eventType ≠ withdrawnType) (hnames : Names e.toLedgerAppend artifact.id) :
    TablesAgree (s.extend artifact node edges (s.ledger.insert e)) where
  ids := by
    simp only [ReasoningState.extend, List.map_append, List.map_singleton]
    rw [List.nodup_append]
    refine ⟨h.ids, List.nodup_singleton _, fun x hx y hy => ?_⟩
    obtain ⟨b, hb, rfl⟩ := List.mem_map.mp hx
    obtain rfl := List.mem_singleton.mp hy
    exact hid b hb
  nodes := by simp [ReasoningState.extend, h.nodes, hnode]
  edges := by
    simp only [ReasoningState.supersedesEdges, ReasoningState.revisions, ReasoningState.extend,
      List.filter_append]
    refine List.rel_append (h.edges.imp fun e a he => ?_) hedges
    exact he.mono (List.subset_append_left _ _)
  written := by
    intro f hf hwritten
    simp only [ReasoningState.extend, LedgerState.insert, List.mem_append, List.mem_singleton] at hf ⊢
    rcases hf with hf | rfl
    · obtain ⟨a, ha, hnamed⟩ := h.written f hf hwritten
      exact ⟨a, .inl ha, hnamed⟩
    · exact ⟨artifact, .inr rfl, hnames⟩
  withdrawn := by
    intro f hf hwithdrawn
    simp only [ReasoningState.extend, LedgerState.insert, List.mem_append, List.mem_singleton] at hf ⊢
    rcases hf with hf | rfl
    · obtain ⟨a, ha, hnamed⟩ := h.withdrawn f hf hwithdrawn
      exact ⟨a, .inl ha, hnamed⟩
    · exact absurd hwithdrawn htype

/-! ### Steps -/

/-- **Commits.** -/
theorem Sound.commit (h : Sound s) {artifact : ReasoningArtifact} {nodeId : UUID} {edgeIds : List UUID}
    {label : String} {context : ArtifactEventContext} {r : ArtifactWriteResult}
    (hrun : commit db artifact nodeId edgeIds label context s = (.ok r, s')) :
    Sound s' ∧ s'.ledger = s.ledger.insert r.event ∧ r.event.eventType = committedType
      ∧ Names r.event.toLedgerAppend artifact.id := by
  obtain ⟨⟨hversion, hinitial, hactive⟩, node, edges, event, e, ledger, hp, hevent, happend, rfl, rfl⟩ :=
    commit_ok.mp hrun
  have hfresh := freshArtifact_iff.mp hp.fresh
  have hevent' : artifactEvent artifact context committedType (artifact.eventEntries ++ []) = .ok event :=
    hevent
  have htype := (artifactEvent_ok hevent).1.eventType
  obtain ⟨hnames, hsame, hnew⟩ := names_of_append (names_artifactEvent hevent') happend
  rw [htype] at hsame
  -- A stored event of the artifact would be one of a stored artifact.
  have hstored : e ∉ s.ledger.events := by
    intro he
    obtain ⟨b, hb, hnamed⟩ := h.written e he (.inl hsame)
    exact (hfresh b hb).1 (hnamed.unique hnames)
  obtain ⟨rfl, -⟩ := hnew.resolve_left hstored
  refine ⟨⟨?_, fun w n l => ?_⟩, rfl, hsame, hnames⟩
  · refine h.toTablesAgree.extend (fun b hb => (hfresh b hb).1) (graphNode_ok hp.projected).2 ?_ ?_ hnames
    · rw [filter_parentEdges hp.drawn]
      simp [hinitial]
    · rw [hsame]
      decide
  · rw [chain_extend]
    split_ifs with hkey
    · have hempty : s.chain w n l = [] := by
        by_contra hne
        -- Otherwise the chain has a first version.
        have hfirst := ((h.chain w n l).first _ (List.head?_eq_some_head hne)).1
        obtain ⟨hb, hw, hn, hl⟩ := mem_chain.mp (List.head_mem hne)
        refine (hfresh _ hb).2 ?_
        simp only [ReasoningArtifact.revisionKey, hw, hn, hl, hkey, hversion, Prod.mk.injEq, true_and]
        exact hfirst
      rw [hempty]
      exact IsVersionChain.singleton hversion hinitial (by simp [artifactVersions, hactive])
    · rw [List.append_nil]
      exact h.chain w n l

/-- **Revisions.** -/
theorem Sound.revise (h : Sound s) {artifact : ReasoningArtifact} {nodeId edgeId : UUID}
    {edgeIds : List UUID} {label reason : String} {context : ArtifactEventContext}
    {r : ArtifactWriteResult}
    (hrun : revise db artifact nodeId edgeId edgeIds label reason context s = (.ok r, s')) :
    Sound s' ∧ s'.ledger = s.ledger.insert r.event ∧ r.event.eventType = revisedType
      ∧ Names r.event.toLedgerAppend artifact.id := by
  obtain ⟨previous, previousNode, node, edges, edge, event, e, ledger, hr, hevent, happend, rfl, rfl⟩ :=
    revise_ok.mp hrun
  have hfresh := freshArtifact_iff.mp hr.projects.fresh
  have htype := (artifactEvent_ok hevent).1.eventType
  obtain ⟨hnames, hsame, hnew⟩ := names_of_append (names_artifactEvent hevent) happend
  rw [htype] at hsame
  have hstored : e ∉ s.ledger.events := by
    intro he
    obtain ⟨b, hb, hnamed⟩ := h.written e he (.inr hsame)
    exact (hfresh b hb).1 (hnamed.unique hnames)
  obtain ⟨rfl, -⟩ := hnew.resolve_left hstored
  obtain ⟨hmem, hw, hn, -⟩ := artifact?_some hr.predecessor.found
  have hactive := hr.predecessor.active
  refine ⟨⟨?_, fun w n l => ?_⟩, rfl, hsame, hnames⟩
  · have hmark := h.toTablesAgree.mark hmem hactive .superseded context.recordedAt
    refine hmark.extend (fun b hb => ?_) (graphNode_ok hr.projects.projected).2 ?_ ?_ hnames
    · obtain ⟨c, hc, rfl⟩ := List.mem_map.mp hb
      simpa using (hfresh c hc).1
    · obtain ⟨hnodeId, hprojection⟩ := graphNode_ok hr.projects.projected
      obtain ⟨hnodeMem, hnodeWorkspace, hnodeSession, hnodeRef⟩ := node?_some hr.predecessor.node
      have hedge := graphEdge_ok hr.drawn
      simp only [List.filter_append, filter_parentEdges hr.projects.drawn, List.nil_append, hedge.edgeType,
        hr.supersedes, decide_true, List.filter_cons_of_pos, List.filter_nil, Option.isSome_some,
        List.forall₂_cons, List.Forall₂.nil, and_true]
      simp only [GraphNode.projection, ReasoningArtifact.projection, Prod.mk.injEq] at hprojection
      refine ⟨hedge.workspaceId, hedge.sessionId, ⟨node, by simp, ?_⟩, ⟨previousNode, ?_, ?_⟩⟩
      · exact ⟨hedge.source.symm, hprojection.1, hprojection.2.1, hprojection.2.2.1⟩
      · exact List.mem_append_left _ hnodeMem
      · exact ⟨hedge.target.symm, hnodeWorkspace.trans hw, hnodeSession.trans hn, by rw [hnodeRef, hr.supersedes]⟩
    · rw [hsame]
      decide
  · rw [chain_extend]
    rcases h.chain_mark hmem hactive .superseded context.recordedAt w n l with
      ⟨earlier, hchain, hmarked, hkey⟩ | ⟨hmarked, hkey⟩
    · have hkey' : artifact.workspaceId = w ∧ artifact.sessionId = n ∧ artifact.logicalId = l := by
        rw [← hw, ← hn, ← hr.predecessor.logicalId]
        exact hkey
      rw [if_pos hkey', hmarked]
      have hsound := h.chain w n l
      rw [hchain] at hsound
      refine hsound.concat (same_withStatus _ _ _) ?_ (by simp [artifactVersions, hr.active])
      exact ⟨hr.predecessor.version.symm, hr.supersedes, rfl, hr.predecessor.kind⟩
    · have hkey' : ¬ (artifact.workspaceId = w ∧ artifact.sessionId = n ∧ artifact.logicalId = l) := by
        rw [← hw, ← hn, ← hr.predecessor.logicalId]
        exact hkey
      rw [if_neg hkey', List.append_nil, hmarked]
      exact h.chain w n l

/-- **Withdrawals.** -/
theorem Sound.withdraw (h : Sound s) {w n id : UUID} {reason : String} {warrants : List UUID}
    {context : ArtifactEventContext} {r : ArtifactWriteResult}
    (hrun : withdraw db w n id reason warrants context s = (.ok r, s')) :
    Sound s' ∧ s'.ledger = s.ledger.insert r.event ∧ r.event.eventType = withdrawnType
      ∧ Names r.event.toLedgerAppend id := by
  obtain ⟨artifact, event, e, ledger, hw, hevent, happend, rfl, rfl⟩ := withdraw_ok.mp hrun
  obtain ⟨hmem, rfl, rfl, rfl⟩ := artifact?_some hw.found
  have htype := (artifactEvent_ok hevent).1.eventType
  obtain ⟨hnames, hsame, hnew⟩ := names_of_append (names_artifactEvent hevent) happend
  rw [htype] at hsame
  have hstored : e ∉ s.ledger.events := by
    intro he
    obtain ⟨b, hb, hstatus, hnamed⟩ := h.withdrawn e he hsame
    obtain rfl := h.eq_of_id hb hmem (hnamed.unique hnames)
    simp [hw.active] at hstatus
  obtain ⟨rfl, -⟩ := hnew.resolve_left hstored
  have hmark := h.toTablesAgree.mark hmem hw.active .withdrawn context.recordedAt
  refine ⟨⟨⟨hmark.ids, hmark.nodes, hmark.edges, ?_, ?_⟩, fun w n l => ?_⟩, rfl, hsame, hnames⟩
  · intro f hf hwritten
    rcases List.mem_append.mp hf with hf | hf
    · exact hmark.written f hf hwritten
    · obtain rfl := List.mem_singleton.mp hf
      rw [hsame] at hwritten
      exact absurd hwritten (by decide)
  · intro f hf hwithdrawn
    rcases List.mem_append.mp hf with hf | hf
    · exact hmark.withdrawn f hf hwithdrawn
    · obtain rfl := List.mem_singleton.mp hf
      refine ⟨artifact.marked artifact.id .withdrawn context.recordedAt, List.mem_map_of_mem hmem, ?_, ?_⟩
      · simp [ReasoningArtifact.marked]
      · simpa using hnames
  · show IsVersionChain artifactVersions ((s.mark artifact.id .withdrawn context.recordedAt).chain w n l)
    rcases h.chain_mark hmem hw.active .withdrawn context.recordedAt w n l with
      ⟨earlier, hchain, hmarked, -⟩ | ⟨hmarked, -⟩
    · have hsound := h.chain w n l
      rw [hchain] at hsound
      rw [hmarked]
      exact hsound.change_last (same_withStatus _ _ _) (by simp [artifactVersions])
    · rw [hmarked]
      exact h.chain w n l

end Agora.Artifacts
