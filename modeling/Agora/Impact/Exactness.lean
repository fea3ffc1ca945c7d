import Agora.Impact.Exploration

namespace Agora.Impact

open Filter

/-!
# Exact analyses

Each root is explored on its own, and what it reaches is measured in what has been recorded.  Where
the exploration was not blocked these are the measures in the whole graph (`analyseRoot_ok`), and an
analysis that says it is complete has explored every root so (`impactOf_exact`).
-/

section Measure

variable {κ : Type} {request : UUID → Option κ → Py (TraversalResult κ)} {d : ℕ}
  {t : ReasoningTables} {w n : UUID} {root : GraphNode} {e : Exploration}

/-- The distance of a node from a root, and the number of simple walks to it. -/
structure Reached.IsMeasured (r : Reached) (G : Multigraph UUID GraphEdge) (start : UUID) : Prop where
  depth : G.IsDistance start r.node.id r.minDepth
  paths : (r.pathCount : ℕ∞) = (G.simpleWalks start r.node.id).encard

/-- There is one measure of a node. -/
theorem Reached.IsMeasured.eq {r r' : Reached} {G : Multigraph UUID GraphEdge} {start : UUID}
    (h : r.IsMeasured G start) (h' : r'.IsMeasured G start) (hnode : r.node = r'.node)
    (hevidence : r.rootEvidenceId = r'.rootEvidenceId) : r = r' := by
  obtain ⟨node, evidence, depth, paths⟩ := r
  obtain ⟨node', evidence', depth', paths'⟩ := r'
  obtain rfl : node = node' := hnode
  obtain rfl : evidence = evidence' := hevidence
  obtain rfl : depth = depth' := h.depth.unique h'.depth
  have hcount : (paths : ℕ∞) = (paths' : ℕ∞) := h.paths.trans h'.paths.symm
  obtain rfl : paths = paths' := by exact_mod_cast hcount
  rfl

/-- **Measures.**  What can be reached is measured. -/
theorem measure_ok (maxDepth : ℕ) {edges : List GraphEdge} (hedges : edges.Nodup) (evidenceId : UUID)
    {node : GraphNode} (hreach : (forwardGraph edges).Reachable root.id node.id) :
    ∃ r, measure maxDepth root evidenceId edges node = .ok r ∧ r.node = node
      ∧ r.rootEvidenceId = evidenceId ∧ r.IsMeasured (forwardGraph edges) root.id := by
  unfold measure shortestDepthOf pathCountOf
  by_cases hsame : root.id = node.id
  · rw [if_pos hsame, if_pos hsame]
    refine ⟨_, rfl, rfl, rfl, ?_, ?_⟩
    · show (forwardGraph edges).IsDistance root.id node.id 0
      rw [hsame]
      exact Multigraph.isDistance_self
    · show ((1 : ℕ) : ℕ∞) = ((forwardGraph edges).simpleWalks root.id node.id).encard
      rw [hsame, Multigraph.simpleWalks_self, Set.encard_singleton, Nat.cast_one]
  · obtain ⟨depth, hdepth, hdistance⟩ :=
      exists_shortestDepth ImpactError.outOfFuel maxDepth hsame hreach
    obtain ⟨count, hcount, hwalks⟩ :=
      exists_pathCount ImpactError.outOfFuel hedges hsame hreach
    rw [if_neg hsame, if_neg hsame, hdepth, hcount]
    exact ⟨_, rfl, rfl, rfl, hdistance, hwalks⟩

/-- Everything that an exploration has seen is measured. -/
theorem Explored.mapM_measure (h : Explored d t w n root e) (hqueue : e.queue = []) (maxDepth : ℕ)
    (evidenceId : UUID) :
    ∃ reached, e.nodes.mapM (measure maxDepth root evidenceId e.edges) = .ok reached := by
  refine Except.exists_mapM_ok fun v hv => ?_
  obtain ⟨r, hr, -⟩ := measure_ok maxDepth h.nodup.of_map evidenceId (h.reachable hqueue hv)
  exact ⟨r, hr⟩

/-- **Root.**  An exploration that was not blocked has measured all that can be reached in the whole
    graph. -/
theorem Explored.mem_reached (h : Explored d t w n root e) (hqueue : e.queue = [])
    (hunblocked : Unblocked (t.sessionGraph w n) d root.id) {maxDepth : ℕ} {evidenceId : UUID}
    {reached : List Reached}
    (hreached : e.nodes.mapM (measure maxDepth root evidenceId e.edges) = .ok reached) {r : Reached} :
    r ∈ reached ↔ r.node ∈ t.sessionNodes w n ∧ r.rootEvidenceId = evidenceId
      ∧ r.IsMeasured (t.sessionGraph w n) root.id := by
  have hrecorded (r : Reached) : r.IsMeasured (forwardGraph e.edges) root.id
      ↔ r.IsMeasured (t.sessionGraph w n) root.id := by
    have hall : ∀ es, (t.sessionGraph w n).IsSimple root.id es → ∀ x ∈ es, x ∈ {x | x ∈ e.edges} :=
      fun es hes x hx => h.mem_edges hqueue hunblocked hes hx
    have hdepth := Multigraph.isDistance_restrict (v := r.node.id) (k := r.minDepth)
      h.edges_subset hall
    have hwalks := Multigraph.simpleWalks_restrict (v := r.node.id) h.edges_subset hall
    constructor
    · exact fun hr => ⟨hdepth.mp hr.depth, hwalks ▸ hr.paths⟩
    · refine fun hr => ⟨hdepth.mpr hr.depth, ?_⟩
      rw [hr.paths, ← hwalks]
      rfl
  have hmeasure {v : GraphNode} (hv : v ∈ e.nodes) := measure_ok maxDepth h.nodup.of_map evidenceId
    (h.reachable hqueue hv)
  constructor
  · intro hr
    obtain ⟨v, hv, hmeasured⟩ := Except.exists_of_mem_mapM hreached hr
    obtain ⟨r', hr', rfl, rfl, hmeasures⟩ := hmeasure hv
    obtain rfl := Except.ok.inj (hr'.symm.trans hmeasured)
    exact ⟨((h.nodes _).mp hv).1, rfl, (hrecorded _).mp hmeasures⟩
  · rintro ⟨hnode, rfl, hmeasures⟩
    have hv : r.node ∈ e.nodes :=
      (h.mem_nodes hqueue hunblocked).mpr ⟨hnode, hmeasures.depth.reachable⟩
    obtain ⟨r', hr', hsame, hevidence, hmeasures'⟩ := hmeasure hv
    obtain ⟨r'', hr'', hmem⟩ := Except.exists_mem_of_mapM hreached hv
    obtain rfl := Except.ok.inj (hr'.symm.trans hr'')
    rw [← ((hrecorded _).mp hmeasures').eq hmeasures hsame hevidence]
    exact hmem

end Measure

/-! ### All roots -/

section Roots

variable {κ : Type} {trace : TraceForward κ} {maxDepth fuel : ℕ} {t : ReasoningTables}
  {workspaceId sourceId : UUID}

variable (maxDepth t workspaceId) in
/-- A root that has a node and is not blocked. -/
def IsOpen (root : UUID × UUID) : Prop :=
  ∃ start, t.nodeForArtifact workspaceId root.1 root.2 = some start
    ∧ Unblocked (t.sessionGraph workspaceId root.1) maxDepth start.id

variable (t workspaceId) in
/-- A root reaches a node, and this is how far it is and in how many ways. -/
def Reaches (root : UUID × UUID) (r : Reached) : Prop :=
  ∃ start, t.nodeForArtifact workspaceId root.1 root.2 = some start
    ∧ r.node ∈ t.sessionNodes workspaceId root.1 ∧ r.rootEvidenceId = root.2
    ∧ r.IsMeasured (t.sessionGraph workspaceId root.1) start.id

theorem mem_of_nodeForArtifact {sessionId artifactId : UUID} {start : GraphNode}
    (h : t.nodeForArtifact workspaceId sessionId artifactId = some start) :
    start ∈ t.sessionNodes workspaceId sessionId :=
  List.mem_of_find?_eq_some h

theorem mem_citedRoots {root : UUID × UUID} : root ∈ citedRoots t workspaceId sourceId
    ↔ ∃ c ∈ t.citationRoots workspaceId sourceId, root = (c.sessionId, c.evidenceArtifactId) := by
  simp [citedRoots, eq_comm]

/-- What is reached from two roots is the same if it has one key. -/
theorem Reaches.eq_of_key_eq {root root' : UUID × UUID} {r r' : Reached}
    (h : Reaches t workspaceId root r) (h' : Reaches t workspaceId root' r')
    (hroot : root ∈ citedRoots t workspaceId sourceId)
    (hroot' : root' ∈ citedRoots t workspaceId sourceId)
    (href : r.node.refId = r'.node.refId) (hevidence : r.rootEvidenceId = r'.rootEvidenceId) :
    r = r' := by
  obtain ⟨c, hc, rfl⟩ := mem_citedRoots.mp hroot
  obtain ⟨c', hc', rfl⟩ := mem_citedRoots.mp hroot'
  obtain ⟨start, hstart, hnode, heq, hmeasured⟩ := h
  obtain ⟨start', hstart', hnode', heq', hmeasured'⟩ := h'
  dsimp only at *
  have hsame : c.evidenceArtifactId = c'.evidenceArtifactId := heq.symm.trans (hevidence.trans heq')
  have hsession := t.session_eq_of_evidence_eq (List.mem_filter.mp hc).1 (List.mem_filter.mp hc').1 hsame
  rw [← hsession] at hstart' hnode' hmeasured'
  rw [← hsame] at hstart'
  obtain rfl : start = start' := Option.some.inj (hstart.symm.trans hstart')
  have hboth := t.mem_sessionNodes.mp hnode
  have hboth' := t.mem_sessionNodes.mp hnode'
  have hnodes : r.node = r'.node := List.inj_on_of_nodup_map t.node_refs hboth.1 hboth'.1
    (Prod.ext (hboth.2.2.trans hboth'.2.2.symm) href)
  exact hmeasured.eq hmeasured' hnodes hevidence

/-- **Root.**  One root raises the flag unless it is open, and then adds what it reaches. -/
theorem analyseRoot_ok (hserves : Serves trace t maxDepth) {state state' : List Reached × Bool}
    {root : UUID × UUID} (h : analyseRoot trace maxDepth fuel t workspaceId state root = .ok state') :
    (state'.2 = true ↔ state.2 = true ∨ ¬ IsOpen maxDepth t workspaceId root)
      ∧ ∃ reached, state'.1 = keyedUpdate Reached.key state.1 reached
        ∧ (IsOpen maxDepth t workspaceId root → ∀ r, r ∈ reached ↔ Reaches t workspaceId root r) := by
  unfold analyseRoot at h
  cases hstart : t.nodeForArtifact workspaceId root.1 root.2 with
  | none =>
    rw [hstart] at h
    obtain rfl := Except.ok.inj h
    have hclosed : ¬ IsOpen maxDepth t workspaceId root := by simp [IsOpen, hstart]
    exact ⟨by simp [hclosed], [], rfl, fun hopen => absurd hopen hclosed⟩
  | some start =>
    rw [hstart] at h
    obtain ⟨e, he, h⟩ := Except.bind_eq_ok.mp h
    obtain ⟨reached, hreached, h⟩ := Except.bind_eq_ok.mp h
    obtain rfl := Except.ok.inj h
    obtain ⟨hexplored, hqueue⟩ := explored_of_ok
      (fun v hv => hserves workspaceId root.1 v hv) (mem_of_nodeForArtifact hstart) he
    have hopen : IsOpen maxDepth t workspaceId root
        ↔ Unblocked (t.sessionGraph workspaceId root.1) maxDepth start.id := by
      simp [IsOpen, hstart]
    refine ⟨?_, reached, rfl, fun hroot r => ?_⟩
    · rw [Bool.or_eq_true, hexplored.truncated_iff hqueue, hopen]
    · rw [hexplored.mem_reached hqueue (hopen.mp hroot) hreached]
      simp [Reaches, hstart]

theorem eventually_analyseRoot (hserves : Serves trace t maxDepth) (root : UUID × UUID) :
    ∀ᶠ fuel in atTop, ∀ state, ∃ state',
      analyseRoot trace maxDepth fuel t workspaceId state root = .ok state' := by
  unfold analyseRoot
  cases hstart : t.nodeForArtifact workspaceId root.1 root.2 with
  | none => exact .of_forall fun fuel state => ⟨_, rfl⟩
  | some start =>
    have hsession : ServesSession (fun id cursor => trace workspaceId root.1 id maxDepth maxPageSize cursor)
        t workspaceId root.1 maxDepth := fun v hv => hserves workspaceId root.1 v hv
    filter_upwards [eventually_explore hsession (mem_of_nodeForArtifact hstart)] with fuel hexplore state
    obtain ⟨e, he⟩ := hexplore
    obtain ⟨hexplored, hqueue⟩ := explored_of_ok hsession (mem_of_nodeForArtifact hstart) he
    obtain ⟨reached, hreached⟩ := hexplored.mapM_measure hqueue maxDepth root.2
    dsimp only
    rw [he, Except.ok_bind, hreached]
    exact ⟨_, rfl⟩

/-- **Roots.**  The flag is down if every root is open, and then all that they reach is there. -/
theorem analyseRoots_ok (hserves : Serves trace t maxDepth) {roots : List (UUID × UUID)}
    (hroots : ∀ root ∈ roots, root ∈ citedRoots t workspaceId sourceId) {state : List Reached × Bool}
    (h : roots.foldlM (analyseRoot trace maxDepth fuel t workspaceId) ([], false) = .ok state) :
    (state.2 = true ↔ ∃ root ∈ roots, ¬ IsOpen maxDepth t workspaceId root)
      ∧ (state.1.map Reached.key).Nodup
      ∧ ((∀ root ∈ roots, IsOpen maxDepth t workspaceId root) →
        ∀ r, r ∈ state.1 ↔ ∃ root ∈ roots, Reaches t workspaceId root r) := by
  induction roots using List.reverseRecOn generalizing state with
  | nil =>
    obtain rfl := Except.ok.inj h
    simp
  | append_singleton roots root ih =>
    rw [List.foldlM_append] at h
    obtain ⟨before, hbefore, h⟩ := Except.bind_eq_ok.mp h
    obtain ⟨after, hafter, h⟩ := Except.bind_eq_ok.mp h
    obtain rfl := Except.ok.inj h
    have hsub : ∀ root ∈ roots, root ∈ citedRoots t workspaceId sourceId :=
      fun root' hroot' => hroots root' (List.mem_append_left _ hroot')
    obtain ⟨hflag, hnodup, hmem⟩ := ih hsub hbefore
    obtain ⟨hflag', reached, hupdate, hreached⟩ := analyseRoot_ok hserves hafter
    refine ⟨?_, ?_, fun hall r => ?_⟩
    · rw [hflag', hflag]
      simp [or_and_right, exists_or]
    · rw [hupdate]
      exact nodup_keyedUpdate hnodup _
    · obtain ⟨hopen, hlast⟩ := List.forall_mem_append.mp hall
      have hmem := hmem hopen
      have hreached := hreached (hlast root (by simp))
      rw [hupdate, mem_keyedUpdate, hmem, hreached]
      · simp [or_and_right, exists_or]
      · have hreaches : ∀ a ∈ before.1 ++ reached,
            ∃ root ∈ citedRoots t workspaceId sourceId, Reaches t workspaceId root a := by
          refine List.forall_mem_append.mpr ⟨fun a ha => ?_, fun a ha => ?_⟩
          · obtain ⟨root', hroot', hr⟩ := (hmem a).mp ha
            exact ⟨root', hsub root' hroot', hr⟩
          · exact ⟨root, hroots root (by simp), (hreached a).mp ha⟩
        intro a ha b hb hkey
        obtain ⟨root₁, hroot₁, hr₁⟩ := hreaches a ha
        obtain ⟨root₂, hroot₂, hr₂⟩ := hreaches b hb
        obtain ⟨href, hrest⟩ := Prod.mk.inj hkey
        exact hr₁.eq_of_key_eq hr₂ hroot₁ hroot₂ href (Prod.mk.inj hrest).2

theorem eventually_analyseRoots (hserves : Serves trace t maxDepth) (roots : List (UUID × UUID)) :
    ∀ᶠ fuel in atTop, ∀ state, ∃ state',
      roots.foldlM (analyseRoot trace maxDepth fuel t workspaceId) state = .ok state' := by
  induction roots with
  | nil => exact .of_forall fun fuel state => ⟨state, rfl⟩
  | cons root roots ih =>
    filter_upwards [ih, eventually_analyseRoot hserves root] with fuel hrest hroot state
    obtain ⟨state', hstate'⟩ := hroot state
    rw [List.foldlM_cons, hstate']
    exact hrest state'

/-! ### Artifacts -/

/-- Reached nodes with different keys give one dependency each, where the artifact exists. -/
theorem artifactDependencies_eq {l : List Reached}
    (hkeys : (l.map fun r => (r.node.refId, r.rootEvidenceId)).Nodup) :
    t.artifactDependencies workspaceId l = (l.insertionSort fun a b => a.sortKey ≤ b.sortKey).filterMap
      fun r => (t.artifact? workspaceId r.node.refId).map (artifactDependency r) := by
  unfold ReasoningTables.artifactDependencies
  rw [keyedUpdate_of_nodup (by simpa using hkeys), List.nil_append]

theorem mem_artifactDependencies {l : List Reached}
    (hkeys : (l.map fun r => (r.node.refId, r.rootEvidenceId)).Nodup) {d : ImpactDependency} :
    d ∈ t.artifactDependencies workspaceId l ↔ ∃ r ∈ l, ∃ a,
      t.artifact? workspaceId r.node.refId = some a ∧ artifactDependency r a = d := by
  rw [artifactDependencies_eq hkeys]
  simp

/-- None is missing where every artifact exists. -/
theorem length_artifactDependencies {l : List Reached}
    (hkeys : (l.map fun r => (r.node.refId, r.rootEvidenceId)).Nodup) :
    (t.artifactDependencies workspaceId l).length = l.length
      ↔ ∀ r ∈ l, ∃ a, t.artifact? workspaceId r.node.refId = some a := by
  rw [artifactDependencies_eq hkeys, ← List.length_insertionSort (fun a b => a.sortKey ≤ b.sortKey) l,
    List.filterMap_length_eq_length]
  simp [Option.isSome_iff_exists]

/-- No artifact and root are there twice. -/
theorem nodup_artifactDependencies {l : List Reached}
    (hkeys : (l.map fun r => (r.node.refId, r.rootEvidenceId)).Nodup) :
    ((t.artifactDependencies workspaceId l).map fun d => (d.dependentId, d.rootEvidenceId)).Nodup := by
  have hperm := (List.perm_insertionSort (fun a b : Reached => a.sortKey ≤ b.sortKey) l).map
    fun r => (r.node.refId, r.rootEvidenceId)
  have hsorted := List.pairwise_map.mp (hperm.nodup_iff.mpr hkeys)
  rw [artifactDependencies_eq hkeys]
  refine List.pairwise_map.mpr (List.pairwise_filterMap.mpr (hsorted.imp ?_))
  intro r r' hne d hd d' hd'
  obtain ⟨a, -, rfl⟩ := Option.map_eq_some_iff.mp hd
  obtain ⟨a', -, rfl⟩ := Option.map_eq_some_iff.mp hd'
  exact hne

theorem downstream_not_artifact {artifacts : List ImpactDependency} {d : ImpactDependency}
    (h : d ∈ t.downstreamRecords workspaceId artifacts) : d.dependencyType ≠ .artifact := by
  obtain ⟨m, -, rfl⟩ := List.mem_map.mp h
  exact m.key.not_artifact

/-- **Analysis.**  What an analysis returns if every root is open. -/
theorem analyse_ok (hserves : Serves trace t maxDepth) {truncated : Bool}
    {dependencies : List ImpactDependency}
    (h : analyse trace maxDepth fuel t workspaceId sourceId = .ok (truncated, dependencies)) :
    (truncated = false ↔ ∀ root ∈ citedRoots t workspaceId sourceId, IsOpen maxDepth t workspaceId root
      ∧ ∀ r, Reaches t workspaceId root r → ∃ a, t.artifact? workspaceId r.node.refId = some a)
    ∧ ((∀ root ∈ citedRoots t workspaceId sourceId, IsOpen maxDepth t workspaceId root) →
      (∀ d, d ∈ dependencies ∧ d.dependencyType = .artifact
        ↔ ∃ root ∈ citedRoots t workspaceId sourceId, ∃ r, Reaches t workspaceId root r
          ∧ ∃ a, t.artifact? workspaceId r.node.refId = some a ∧ artifactDependency r a = d)
      ∧ ((dependencies.filter (·.dependencyType = .artifact)).map
          fun d => (d.dependentId, d.rootEvidenceId)).Nodup) := by
  obtain ⟨⟨aggregate, flag⟩, hroots, h⟩ := Except.bind_eq_ok.mp h
  obtain ⟨rfl, rfl⟩ := Prod.mk.inj (Except.ok.inj h)
  obtain ⟨hflag, hnodup, hmem⟩ := analyseRoots_ok hserves (fun root hroot => hroot) hroots
  dsimp only at hflag hnodup hmem ⊢
  have hperm := List.perm_insertionSort (fun a b : Reached => a.sortKey ≤ b.sortKey) aggregate
  -- A root decides the session, so an artifact and a root are a key too.
  have hkeys (hopen : ∀ root ∈ citedRoots t workspaceId sourceId, IsOpen maxDepth t workspaceId root) :
      ((aggregate.insertionSort fun a b => a.sortKey ≤ b.sortKey).map
        fun r => (r.node.refId, r.rootEvidenceId)).Nodup := by
    rw [(hperm.map _).nodup_iff]
    refine hnodup.of_map.map_on fun a ha b hb hkey => ?_
    obtain ⟨root, hroot, hr⟩ := (hmem hopen a).mp ha
    obtain ⟨root', hroot', hr'⟩ := (hmem hopen b).mp hb
    obtain ⟨href, hevidence⟩ := Prod.mk.inj hkey
    exact hr.eq_of_key_eq hr' hroot hroot' href hevidence
  refine ⟨?_, fun hopen => ⟨fun d => ?_, ?_⟩⟩
  · rw [Bool.or_eq_false_iff, ← Bool.not_eq_true, hflag]
    by_cases hopen : ∀ root ∈ citedRoots t workspaceId sourceId, IsOpen maxDepth t workspaceId root
    · have hlength := @length_artifactDependencies t workspaceId _ (hkeys hopen)
      rw [hperm.length_eq] at hlength
      rw [decide_eq_false_iff_not, not_not, hlength]
      simp only [List.mem_insertionSort, hmem hopen]
      constructor
      · exact fun h root hroot => ⟨hopen root hroot, fun r hr => h.2 r ⟨root, hroot, hr⟩⟩
      · intro h
        refine ⟨fun ⟨root, hroot, hclosed⟩ => hclosed (hopen root hroot), ?_⟩
        rintro r ⟨root, hroot, hr⟩
        exact (h root hroot).2 r hr
    · constructor
      · intro h
        refine absurd (fun root hroot => ?_) hopen
        by_contra hclosed
        exact h.1 ⟨root, hroot, hclosed⟩
      · exact fun h => absurd (fun root hroot => (h root hroot).1) hopen
  · rw [List.mem_insertionSort, List.mem_append]
    constructor
    · rintro ⟨hd | hd, htype⟩
      · obtain ⟨r, hr, ha⟩ := (mem_artifactDependencies (hkeys hopen)).mp hd
        obtain ⟨root, hroot, hreaches⟩ := (hmem hopen r).mp ((List.mem_insertionSort _).mp hr)
        exact ⟨root, hroot, r, hreaches, ha⟩
      · exact absurd htype (downstream_not_artifact hd)
    · rintro ⟨root, hroot, r, hr, a, ha, rfl⟩
      refine ⟨.inl ((mem_artifactDependencies (hkeys hopen)).mpr ⟨r, ?_, a, ha, rfl⟩), rfl⟩
      exact (List.mem_insertionSort _).mpr ((hmem hopen r).mpr ⟨root, hroot, hr⟩)
  · have hartifact : ∀ d ∈ t.artifactDependencies workspaceId
        (aggregate.insertionSort fun a b => a.sortKey ≤ b.sortKey), d.dependencyType = .artifact := by
      intro d hd
      obtain ⟨r, -, a, -, rfl⟩ := (mem_artifactDependencies (hkeys hopen)).mp hd
      rfl
    have hsorted := ((List.perm_insertionSort (fun a b => dependencyKey a ≤ dependencyKey b)
      (t.artifactDependencies workspaceId (aggregate.insertionSort fun a b => a.sortKey ≤ b.sortKey)
        ++ t.downstreamRecords workspaceId (t.artifactDependencies workspaceId
          (aggregate.insertionSort fun a b => a.sortKey ≤ b.sortKey)))).filter
            (·.dependencyType = .artifact)).map fun d => (d.dependentId, d.rootEvidenceId)
    rw [hsorted.nodup_iff, List.filter_append, List.filter_eq_self.mpr (by simpa using hartifact),
      List.filter_eq_nil_iff.mpr (by simpa using fun d => downstream_not_artifact), List.append_nil]
    exact nodup_artifactDependencies (hkeys hopen)

theorem eventually_analyse (hserves : Serves trace t maxDepth) : ∀ᶠ fuel in atTop,
    ∃ result, analyse trace maxDepth fuel t workspaceId sourceId = .ok result := by
  filter_upwards [eventually_analyseRoots hserves (citedRoots t workspaceId sourceId)] with fuel h
  obtain ⟨state, hstate⟩ := h ([], false)
  rw [analyse, hstate]
  exact ⟨_, rfl⟩

/-! ### The service -/

variable (t workspaceId sourceId) in
/-- Evidence that cites the source leads to an artifact, and this is how. -/
def Leads (evidenceId artifactId : UUID) (depth : ℕ) (paths : ℕ∞) : Prop :=
  ∃ c ∈ t.citationRoots workspaceId sourceId, c.evidenceArtifactId = evidenceId
    ∧ ∃ start, t.nodeForArtifact workspaceId c.sessionId evidenceId = some start
    ∧ ∃ v ∈ t.sessionNodes workspaceId c.sessionId, v.refId = artifactId
      ∧ (t.sessionGraph workspaceId c.sessionId).IsDistance start.id v.id depth
      ∧ paths = ((t.sessionGraph workspaceId c.sessionId).simpleWalks start.id v.id).encard

/-- **Termination.**  With enough fuel an analysis comes to its end, and it is complete if every root
    is open and no artifact is missing. -/
theorem eventually_impactOf (hserves : Serves trace t maxDepth) {sources : List Source}
    (hlock : lockSourceForAnalysis sources workspaceId sourceId = .ok ()) : ∀ᶠ fuel in atTop,
    ∃ result, impactOf trace maxDepth fuel t workspaceId sourceId sources = .ok result
      ∧ (result.complete = true ↔ ∀ root ∈ citedRoots t workspaceId sourceId,
        IsOpen maxDepth t workspaceId root
          ∧ ∀ r, Reaches t workspaceId root r → ∃ a, t.artifact? workspaceId r.node.refId = some a) := by
  filter_upwards [eventually_analyse hserves] with fuel hanalyse
  obtain ⟨⟨truncated, dependencies⟩, hanalyse⟩ := hanalyse
  refine ⟨.finished truncated dependencies, ?_, ?_⟩
  · rw [impactOf, hlock, Except.ok_bind, hanalyse]
    rfl
  · rw [← (analyse_ok hserves hanalyse).1]
    simp [ImpactAnalysisResult.finished]

/-- A complete analysis has come to its end. -/
theorem finished_of_complete {sources : List Source} {result : ImpactAnalysisResult}
    (h : impactOf trace maxDepth fuel t workspaceId sourceId sources = .ok result)
    (hcomplete : result.complete = true) : ∃ truncated dependencies,
      analyse trace maxDepth fuel t workspaceId sourceId = .ok (truncated, dependencies)
        ∧ result = .finished truncated dependencies := by
  obtain ⟨-, -, h⟩ := Except.bind_eq_ok.mp h
  cases hanalyse : analyse trace maxDepth fuel t workspaceId sourceId with
  | ok r =>
    rw [hanalyse] at h
    exact ⟨r.1, r.2, rfl, (Except.ok.inj h).symm⟩
  | error error =>
    rw [hanalyse] at h
    cases error with
    | outOfFuel => cases h
    | citation message =>
      obtain rfl := Except.ok.inj h
      cases hcomplete
    | other exception =>
      obtain rfl := Except.ok.inj h
      cases hcomplete

/-- **Exactness.**  A complete analysis has one dependency for each artifact that can be reached from
    cited evidence, with its distance and the number of simple walks in the whole graph. -/
theorem impactOf_exact (hserves : Serves trace t maxDepth) {sources : List Source}
    {result : ImpactAnalysisResult}
    (h : impactOf trace maxDepth fuel t workspaceId sourceId sources = .ok result)
    (hcomplete : result.complete = true) :
    (∀ evidenceId artifactId depth (paths : ℕ∞),
      (∃ d ∈ result.dependencies, d.dependencyType = .artifact ∧ d.rootEvidenceId = evidenceId
        ∧ d.dependentId = artifactId ∧ d.minDepth = depth ∧ (d.pathCount : ℕ∞) = paths)
      ↔ Leads t workspaceId sourceId evidenceId artifactId depth paths)
    ∧ ((result.dependencies.filter (·.dependencyType = .artifact)).map
        fun d => (d.dependentId, d.rootEvidenceId)).Nodup := by
  obtain ⟨truncated, dependencies, hanalyse, rfl⟩ := finished_of_complete h hcomplete
  obtain ⟨hflag, hdependencies⟩ := analyse_ok hserves hanalyse
  have hall := hflag.mp (by simpa [ImpactAnalysisResult.finished] using hcomplete)
  obtain ⟨hmem, hnodup⟩ := hdependencies fun root hroot => (hall root hroot).1
  refine ⟨fun evidenceId artifactId depth paths => ?_, hnodup⟩
  constructor
  · rintro ⟨d, hd, htype, rfl, rfl, rfl, rfl⟩
    obtain ⟨root, hroot, r, hr, a, -, rfl⟩ := (hmem d).mp ⟨hd, htype⟩
    obtain ⟨c, hc, rfl⟩ := mem_citedRoots.mp hroot
    obtain ⟨start, hstart, hnode, hevidence, hmeasured⟩ := hr
    refine ⟨c, hc, hevidence.symm, start, ?_, r.node, hnode, rfl, hmeasured.depth, hmeasured.paths⟩
    show t.nodeForArtifact workspaceId c.sessionId r.rootEvidenceId = some start
    rw [hevidence]
    exact hstart
  · rintro ⟨c, hc, rfl, start, hstart, v, hv, rfl, hdepth, rfl⟩
    obtain ⟨r, -, rfl, hevidence, hmeasured⟩ := measure_ok maxDepth t.nodup_sessionEdges
      c.evidenceArtifactId hdepth.reachable
    have hroot := mem_citedRoots.mpr ⟨c, hc, rfl⟩
    have hr : Reaches t workspaceId (c.sessionId, c.evidenceArtifactId) r :=
      ⟨start, hstart, hv, hevidence, hmeasured⟩
    obtain ⟨a, ha⟩ := (hall _ hroot).2 r hr
    obtain ⟨hd, htype⟩ := (hmem _).mpr ⟨_, hroot, r, hr, a, ha, rfl⟩
    exact ⟨_, hd, htype, hevidence, rfl, hmeasured.depth.unique hdepth, hmeasured.paths⟩

end Roots

/-! ### Small tables -/

/-- Ids that differ in the last digit. -/
def smallId (digit : Fin 16) : UUID where
  text := String.ofList ("00000000-0000-4000-8000-00000000000".toList ++ [Nat.digitChar digit])
  canonical := by revert digit; decide +kernel

theorem smallId_injective : ∀ a b : Fin 16, smallId a = smallId b → a = b := by decide +kernel

/-- Tables of one session with a node for each id and one cited node. -/
def tablesOf (ids : List UUID) (edges : List GraphEdge) (root : UUID) (hids : ids.Nodup)
    (hedges : (edges.map (·.id)).Nodup) (hroot : root ∈ ids)
    (hends : ∀ e ∈ edges, e.workspaceId = smallId 0 ∧ e.sessionId = smallId 0
      ∧ e.fromNode ∈ ids ∧ e.toNode ∈ ids) : ReasoningTables where
  artifacts := ids.map fun id => ⟨id, smallId 0, smallId 0, .claim, id, 1⟩
  nodes := ids.map fun id => ⟨id, smallId 0, smallId 0, .claim, id⟩
  edges := edges
  citations := [⟨smallId 0, smallId 0, root, smallId 0⟩]
  consensusResults := []
  recommendations := []
  artifact_ids := by
    rw [List.map_map]
    exact hids.map fun a b h => h
  node_ids := by
    rw [List.map_map]
    exact hids.map fun a b h => h
  node_refs := by
    rw [List.map_map]
    exact hids.map fun a b h => (Prod.mk.inj h).2
  edge_ids := hedges
  edge_ends e he := by
    obtain ⟨hworkspace, hsession, hfrom, hto⟩ := hends e he
    simp [hworkspace, hsession, hfrom, hto]
  cited_evidence := by simpa using hroot

def readySource : Source := ⟨smallId 0, smallId 0, .ready⟩

theorem lock_readySource :
    lockSourceForAnalysis [readySource] (smallId 0) (smallId 0) = .ok () := by
  simp [lockSourceForAnalysis, readySource]

section Tables

variable {ids : List UUID} {edges : List GraphEdge} {root : UUID} {hids : ids.Nodup}
  {hedges : (edges.map (·.id)).Nodup} {hroot : root ∈ ids}
  {hends : ∀ e ∈ edges, e.workspaceId = smallId 0 ∧ e.sessionId = smallId 0
    ∧ e.fromNode ∈ ids ∧ e.toNode ∈ ids}

theorem tablesOf_sessionEdges :
    (tablesOf ids edges root hids hedges hroot hends).sessionEdges (smallId 0) (smallId 0) = edges := by
  refine List.filter_eq_self.mpr fun e he => ?_
  simpa using ⟨(hends e he).1, (hends e he).2.1⟩

theorem tablesOf_nodeForArtifact :
    (tablesOf ids edges root hids hedges hroot hends).nodeForArtifact (smallId 0) (smallId 0) root
      = some ⟨root, smallId 0, smallId 0, .claim, root⟩ := by
  unfold ReasoningTables.nodeForArtifact
  cases hfind : ((tablesOf ids edges root hids hedges hroot hends).sessionNodes (smallId 0)
    (smallId 0)).find? (·.refId = root) with
  | none =>
    have hnone := List.find?_eq_none.mp hfind ⟨root, smallId 0, smallId 0, .claim, root⟩
    simp [ReasoningTables.mem_sessionNodes, tablesOf, hroot] at hnone
  | some v =>
    have hmem := ReasoningTables.mem_sessionNodes.mp (List.mem_of_find?_eq_some hfind)
    obtain ⟨id, -, rfl⟩ := List.mem_map.mp hmem.1
    obtain rfl : id = root := by simpa using List.find?_some hfind
    rfl

theorem tablesOf_artifact {v : GraphNode}
    (hv : v ∈ (tablesOf ids edges root hids hedges hroot hends).nodes) :
    ∃ a, (tablesOf ids edges root hids hedges hroot hends).artifact? (smallId 0) v.refId = some a := by
  obtain ⟨id, hid, rfl⟩ := List.mem_map.mp hv
  refine Option.isSome_iff_exists.mp
    (List.find?_isSome.mpr ⟨⟨id, smallId 0, smallId 0, .claim, id, 1⟩, List.mem_map_of_mem hid, ?_⟩)
  simp

/-- Such tables miss nothing but what is blocked. -/
theorem tablesOf_complete_iff {d : ℕ} :
    (∀ root' ∈ citedRoots (tablesOf ids edges root hids hedges hroot hends) (smallId 0) (smallId 0),
      IsOpen d (tablesOf ids edges root hids hedges hroot hends) (smallId 0) root'
        ∧ ∀ r, Reaches (tablesOf ids edges root hids hedges hroot hends) (smallId 0) root' r →
          ∃ a, (tablesOf ids edges root hids hedges hroot hends).artifact? (smallId 0) r.node.refId = some a)
      ↔ Unblocked (forwardGraph edges) d root := by
  have hroots (root' : UUID × UUID) : root' ∈ citedRoots
      (tablesOf ids edges root hids hedges hroot hends) (smallId 0) (smallId 0)
      ↔ root' = (smallId 0, root) := by
    rw [mem_citedRoots]
    simp [ReasoningTables.citationRoots, tablesOf]
  have hgraph : (tablesOf ids edges root hids hedges hroot hends).sessionGraph (smallId 0) (smallId 0)
      = forwardGraph edges := by
    rw [ReasoningTables.sessionGraph, tablesOf_sessionEdges]
  have hopen : IsOpen d (tablesOf ids edges root hids hedges hroot hends) (smallId 0) (smallId 0, root)
      ↔ Unblocked (forwardGraph edges) d root := by
    unfold IsOpen
    rw [tablesOf_nodeForArtifact, hgraph]
    simp
  constructor
  · exact fun h => hopen.mp (h _ ((hroots _).mpr rfl)).1
  · intro h root' hroot'
    obtain rfl := (hroots root').mp hroot'
    refine ⟨hopen.mpr h, fun r hr => ?_⟩
    obtain ⟨-, -, hnode, -⟩ := hr
    exact tablesOf_artifact (ReasoningTables.mem_sessionNodes.mp hnode).1

end Tables

/-- One edge between two nodes. -/
def pair : ReasoningTables :=
  tablesOf [smallId 0, smallId 1]
    [⟨smallId 0, smallId 0, smallId 0, smallId 0, smallId 1, by decide +kernel⟩] (smallId 0)
    (by decide +kernel) (by simp) (by simp) (by simp)

theorem impactOf_exact_pair : ∃ fuel result,
    impactOf pair.traceForward defaultMaxDepth fuel pair (smallId 0) (smallId 0) [readySource] = .ok result
      ∧ result.complete = true
      ∧ ∀ evidenceId artifactId depth (paths : ℕ∞),
        (∃ d ∈ result.dependencies, d.dependencyType = .artifact ∧ d.rootEvidenceId = evidenceId
          ∧ d.dependentId = artifactId ∧ d.minDepth = depth ∧ (d.pathCount : ℕ∞) = paths)
        ↔ Leads pair (smallId 0) (smallId 0) evidenceId artifactId depth paths := by
  have hserves : Serves pair.traceForward pair defaultMaxDepth := serves_traceForward le_rfl
  obtain ⟨fuel, result, hresult, hcomplete⟩ := (eventually_impactOf hserves lock_readySource).exists
  have hcomplete : result.complete = true := by
    refine hcomplete.mpr (tablesOf_complete_iff.mpr ?_)
    exact unblocked_of_length_le (fun x hx => hx) (by decide) _
  exact ⟨fuel, result, hresult, hcomplete, (impactOf_exact hserves hresult hcomplete).1⟩

/-! ### When an analysis is complete

With every node and artifact in place, an analysis still reports less than everything if its order of
exploration comes to a node with a window that is cut off and with nothing of that window left to
start from (`impactOf_complete_iff`).  The last node in the order is one if it has a long walk, even
when everything has been seen: a cycle of fourteen nodes is never complete (`ring_incomplete`). -/

section Complete

variable {κ : Type} {trace : TraceForward κ} {maxDepth : ℕ} {t : ReasoningTables}
  {workspaceId sourceId : UUID} {sources : List Source}

/-- **Completeness.**  An analysis ends, and it is complete if no root is blocked. -/
theorem impactOf_complete_iff (hserves : Serves trace t maxDepth)
    (hlock : lockSourceForAnalysis sources workspaceId sourceId = .ok ())
    (hnodes : ∀ c ∈ t.citationRoots workspaceId sourceId,
      ∃ start, t.nodeForArtifact workspaceId c.sessionId c.evidenceArtifactId = some start)
    (hartifacts : ∀ c ∈ t.citationRoots workspaceId sourceId, ∀ start,
      t.nodeForArtifact workspaceId c.sessionId c.evidenceArtifactId = some start →
      ∀ v ∈ t.sessionNodes workspaceId c.sessionId,
        (t.sessionGraph workspaceId c.sessionId).Reachable start.id v.id →
        ∃ a, t.artifact? workspaceId v.refId = some a) :
    ∃ enough, ∀ fuel ≥ enough, ∃ result,
      impactOf trace maxDepth fuel t workspaceId sourceId sources = .ok result
        ∧ (result.complete = true ↔ ∀ c ∈ t.citationRoots workspaceId sourceId, ∀ start,
          t.nodeForArtifact workspaceId c.sessionId c.evidenceArtifactId = some start →
          Unblocked (t.sessionGraph workspaceId c.sessionId) maxDepth start.id) := by
  obtain ⟨enough, henough⟩ := eventually_atTop.mp (eventually_impactOf hserves hlock)
  refine ⟨enough, fun fuel hfuel => ?_⟩
  obtain ⟨result, hresult, hcomplete⟩ := henough fuel hfuel
  refine ⟨result, hresult, hcomplete.trans ?_⟩
  constructor
  · intro h c hc start hstart
    obtain ⟨⟨start', hstart', hunblocked⟩, -⟩ := h _ (mem_citedRoots.mpr ⟨c, hc, rfl⟩)
    obtain rfl := Option.some.inj (hstart.symm.trans hstart')
    exact hunblocked
  · intro h root hroot
    obtain ⟨c, hc, rfl⟩ := mem_citedRoots.mp hroot
    obtain ⟨start, hstart⟩ := hnodes c hc
    refine ⟨⟨start, hstart, h c hc start hstart⟩, ?_⟩
    rintro r ⟨start', hstart', hnode, -, hmeasured⟩
    exact hartifacts c hc start' hstart' r.node hnode hmeasured.depth.reachable

end Complete

theorem impactOf_complete_iff_pair : ∃ enough, ∀ fuel ≥ enough, ∃ result,
    impactOf pair.traceForward defaultMaxDepth fuel pair (smallId 0) (smallId 0) [readySource] = .ok result
      ∧ (result.complete = true ↔ ∀ c ∈ pair.citationRoots (smallId 0) (smallId 0), ∀ start,
        pair.nodeForArtifact (smallId 0) c.sessionId c.evidenceArtifactId = some start →
        Unblocked (pair.sessionGraph (smallId 0) c.sessionId) defaultMaxDepth start.id) := by
  have hroot (c : EvidenceCitation) (hc : c ∈ pair.citationRoots (smallId 0) (smallId 0)) :
      c = ⟨smallId 0, smallId 0, smallId 0, smallId 0⟩ := by
    simpa [pair, tablesOf] using (List.mem_filter.mp hc).1
  refine impactOf_complete_iff (serves_traceForward le_rfl) lock_readySource ?_ ?_
  · intro c hc
    obtain rfl := hroot c hc
    exact ⟨_, tablesOf_nodeForArtifact⟩
  · intro c hc start hstart v hv _
    exact tablesOf_artifact (ReasoningTables.mem_sessionNodes.mp hv).1

/-- Where every node has a long walk the last one to start from blocks the root. -/
theorem not_unblocked_of_exceeds {κ : Type} {request : UUID → Option κ → Py (TraversalResult κ)}
    {d : ℕ} {t : ReasoningTables} {w n : UUID} {root : GraphNode}
    (hserves : ServesSession request t w n d) (hroot : root ∈ t.sessionNodes w n)
    (hlong : ∀ v ∈ t.sessionNodes w n, (t.sessionGraph w n).Exceeds d v.id) :
    ¬ Unblocked (t.sessionGraph w n) d root.id := by
  intro hunblocked
  obtain ⟨fuel, e, he⟩ := (eventually_explore hserves hroot).exists
  obtain ⟨h, hqueue⟩ := explored_of_ok hserves hroot he
  rcases List.eq_nil_or_concat e.expanded with hnil | ⟨before, u, heq⟩
  · have hmem := h.root_mem hqueue
    rw [hnil] at hmem
    cases hmem
  · obtain ⟨v, hv, rfl⟩ := h.expanded u (by simp [heq])
    obtain ⟨x, hx, -⟩ := hunblocked e.expanded (h.isSearchOrder hqueue) before v.id [] (by simp [heq])
      (hlong v hv)
    cases hx

/-! ### A cycle -/

def ringId (k : Fin 14) : UUID := smallId (k.castLE (by decide))

theorem ringId_injective : Function.Injective ringId := fun a b h =>
  Fin.castLE_injective (by decide) (smallId_injective _ _ h)

def ringEdge (k : Fin 14) : GraphEdge where
  id := ringId k
  workspaceId := smallId 0
  sessionId := smallId 0
  fromNode := ringId k
  toNode := ringId (k + 1)
  no_self_loop := by revert k; decide +kernel

/-- Fourteen nodes in a cycle. -/
def ring : ReasoningTables :=
  tablesOf ((List.finRange 14).map ringId) ((List.finRange 14).map ringEdge) (ringId 0)
    ((List.nodup_finRange 14).map ringId_injective)
    (by rw [List.map_map]; exact (List.nodup_finRange 14).map ringId_injective)
    (List.mem_map_of_mem (List.mem_finRange 0)) (by
      intro e he
      obtain ⟨k, -, rfl⟩ := List.mem_map.mp he
      simp [ringEdge])

/-- The walk of so many steps from a node. -/
def ringWalk (k : Fin 14) : ℕ → List GraphEdge
  | 0 => []
  | m + 1 => ringEdge k :: ringWalk (k + 1) m

theorem isWalk_ringWalk (k : Fin 14) (m : ℕ) :
    (forwardGraph ((List.finRange 14).map ringEdge)).IsWalk (ringId k) (ringWalk k m) := by
  induction m generalizing k with
  | zero => trivial
  | succ m ih => exact ⟨List.mem_map_of_mem (List.mem_finRange k), rfl, ih (k + 1)⟩

/-- The places that a walk meets. -/
def ringPath (k : Fin 14) : ℕ → List (Fin 14)
  | 0 => [k]
  | m + 1 => k :: ringPath (k + 1) m

theorem vertices_ringWalk (k : Fin 14) (m : ℕ) :
    (forwardGraph ((List.finRange 14).map ringEdge)).vertices (ringId k) (ringWalk k m)
      = (ringPath k m).map ringId := by
  induction m generalizing k with
  | zero => rfl
  | succ m ih => exact congrArg (ringId k :: ·) (ih (k + 1))

theorem ring_exceeds (k : Fin 14) :
    (forwardGraph ((List.finRange 14).map ringEdge)).Exceeds 12 (ringId k) := by
  refine ⟨ringWalk k 13, ⟨isWalk_ringWalk k 13, ?_⟩, rfl⟩
  rw [vertices_ringWalk]
  refine List.Nodup.map ringId_injective ?_
  revert k
  decide +kernel

/-- A cycle is never complete, though everything in it is found. -/
theorem ring_incomplete :
    Serves ring.traceForward ring defaultMaxDepth
      ∧ lockSourceForAnalysis [readySource] (smallId 0) (smallId 0) = .ok ()
      ∧ (∀ c ∈ ring.citationRoots (smallId 0) (smallId 0),
        ∃ start, ring.nodeForArtifact (smallId 0) c.sessionId c.evidenceArtifactId = some start)
      ∧ (∀ v ∈ ring.nodes, ∃ a, ring.artifact? (smallId 0) v.refId = some a)
      ∧ ¬ ∃ fuel result, impactOf ring.traceForward defaultMaxDepth fuel ring (smallId 0) (smallId 0)
        [readySource] = .ok result ∧ result.complete = true := by
  have hserves : Serves ring.traceForward ring defaultMaxDepth := serves_traceForward le_rfl
  have hroot (c : EvidenceCitation) (hc : c ∈ ring.citationRoots (smallId 0) (smallId 0)) :
      c = ⟨smallId 0, smallId 0, ringId 0, smallId 0⟩ := by
    simpa [ring, tablesOf] using (List.mem_filter.mp hc).1
  refine ⟨hserves, lock_readySource, fun c hc => ?_, fun v hv => tablesOf_artifact hv, ?_⟩
  · obtain rfl := hroot c hc
    exact ⟨_, tablesOf_nodeForArtifact⟩
  · rintro ⟨fuel, result, hresult, hcomplete⟩
    obtain ⟨truncated, dependencies, hanalyse, rfl⟩ := finished_of_complete hresult hcomplete
    have hall := (analyse_ok hserves hanalyse).1.mp
      (by simpa [ImpactAnalysisResult.finished] using hcomplete)
    have hgraph : ring.sessionGraph (smallId 0) (smallId 0)
        = forwardGraph ((List.finRange 14).map ringEdge) := by
      rw [ReasoningTables.sessionGraph, ring, tablesOf_sessionEdges]
    have hunblocked := tablesOf_complete_iff.mp hall
    rw [← hgraph] at hunblocked
    have hsession : ServesSession
        (fun id cursor => ring.traceForward (smallId 0) (smallId 0) id defaultMaxDepth maxPageSize cursor)
        ring (smallId 0) (smallId 0) defaultMaxDepth := fun v hv => hserves (smallId 0) (smallId 0) v hv
    refine not_unblocked_of_exceeds hsession
      (mem_of_nodeForArtifact tablesOf_nodeForArtifact) (fun v hv => ?_) hunblocked
    obtain ⟨id, hid, rfl⟩ := List.mem_map.mp (ReasoningTables.mem_sessionNodes.mp hv).1
    obtain ⟨k, -, rfl⟩ := List.mem_map.mp hid
    rw [hgraph]
    exact ring_exceeds k

end Agora.Impact
