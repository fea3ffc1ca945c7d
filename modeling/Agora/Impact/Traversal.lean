import Agora.Impact.Tables
import Mathlib.Data.List.Sort

namespace Agora.Impact

/-!
# Forward traversal

`trace_forward` returns the nodes and edges around a node in pages.  What an analysis needs of it is
that the pages together are the window of the session's graph (`Serves`); the store that walks the
tables by a recursive query does that (`serves_traceForward`).
-/

/-! ### Pages -/

def defaultMaxDepth : ℕ := 12

def maxAllowedDepth : ℕ := 12

def maxPageSize : ℕ := 200

/-- One page; the cursor of the next one is whatever the store makes it. -/
structure TraversalResult (κ : Type) where
  nodes : List GraphNode
  edges : List GraphEdge
  truncated : Bool
  nextCursor : Option κ

/-- `trace_forward(workspace_id, session_id, node_id, max_depth, page_size, cursor)`. -/
abbrev TraceForward (κ : Type) :=
  UUID → UUID → UUID → ℕ → ℕ → Option κ → Py (TraversalResult κ)

section Pages

variable {κ : Type}

/-- The pages that are read from a cursor to the end. -/
inductive Pages (request : Option κ → Py (TraversalResult κ)) :
    Option κ → List (TraversalResult κ) → Prop
  | last {cursor : Option κ} {page : TraversalResult κ} : request cursor = .ok page →
      page.nextCursor = none → Pages request cursor [page]
  | more {cursor : Option κ} {next : κ} {page : TraversalResult κ} {pages : List (TraversalResult κ)} :
      request cursor = .ok page → page.nextCursor = some next → Pages request (some next) pages →
      Pages request cursor (page :: pages)

/-- The pages are the window of a graph around a node, and say whether it is cut off. -/
structure IsWindow (G : Multigraph UUID GraphEdge) (nodes : List GraphNode) (d : ℕ) (start : UUID)
    (pages : List (TraversalResult κ)) : Prop where
  nodes : ∀ v, (∃ p ∈ pages, v ∈ p.nodes) ↔ v ∈ nodes ∧ v.id ∈ G.window d start
  edges : ∀ e, (∃ p ∈ pages, e ∈ p.edges) ↔ e ∈ G.edgeWindow d start
  truncated : (∃ p ∈ pages, p.truncated = true) ↔ G.Exceeds d start

/-- The pages around every node of a session are the window of its graph. -/
def Serves (trace : TraceForward κ) (t : ReasoningTables) (d : ℕ) : Prop :=
  ∀ w n, ∀ start ∈ t.sessionNodes w n, ∃ pages,
    Pages (trace w n start.id d maxPageSize) none pages
      ∧ IsWindow (t.sessionGraph w n) (t.sessionNodes w n) d start.id pages

end Pages

/-! ### The recursive query -/

/-- A row of `walk`. -/
structure WalkRow where
  nodeId : UUID
  depth : ℕ
  path : List UUID
  edgeId : Option UUID

/-- Join a row with the edges that leave its node for one that is not on the path. -/
def extendRow (edges : List GraphEdge) (row : WalkRow) : List WalkRow :=
  edges.filterMap fun e =>
    if e.fromNode = row.nodeId ∧ e.toNode ∉ row.path then
      some ⟨e.toNode, row.depth + 1, row.path ++ [e.toNode], some e.id⟩
    else none

/-- The rows that the query finds in its `k`-th round. -/
def walkLevel (edges : List GraphEdge) (root : UUID) : ℕ → List WalkRow
  | 0 => [⟨root, 0, [root], none⟩]
  | k + 1 => (walkLevel edges root k).flatMap (extendRow edges)

/-- `_walk_sql`: one round more than the bound. -/
def walkRows (edges : List GraphEdge) (root : UUID) (maxDepth : ℕ) : List WalkRow :=
  (List.range (maxDepth + 2)).flatMap (walkLevel edges root)

/-- What a cursor belongs to. -/
structure Query where
  workspaceId : UUID
  sessionId : UUID
  rootId : UUID
  maxDepth : ℕ
deriving DecidableEq

structure Cursor where
  offset : ℕ
  query : Query

def decodeCursor (cursor : Option Cursor) (query : Query) : Py ℕ :=
  match cursor with
  | none => .ok 0
  | some c => if c.query = query then .ok c.offset else .error (.valueError "invalid traversal cursor")

def sortedIds (ids : List UUID) : List UUID := ids.dedup.insertionSort (· ≤ ·)

/-- `l[start:stop]`. -/
def slice {α : Type} (l : List α) (start stop : ℕ) : List α := (l.take stop).drop start

/-- The ids of the nodes and edges within the bound, and whether some walk goes on behind it. -/
structure WalkResult where
  nodeIds : List UUID
  edgeIds : List UUID
  truncated : Bool

def walkResult (edges : List GraphEdge) (root : UUID) (maxDepth : ℕ) : WalkResult :=
  let rows := walkRows edges root maxDepth
  let withinBound := rows.filter (·.depth ≤ maxDepth)
  { nodeIds := sortedIds (withinBound.map (·.nodeId))
    edgeIds := sortedIds (withinBound.filterMap (·.edgeId))
    truncated := withinBound.length < rows.length }

namespace ReasoningTables

variable (t : ReasoningTables)

/-- The members of the result from an offset on: first the nodes, then the edges. -/
def page (query : Query) (r : WalkResult) (offset pageSize : ℕ) : TraversalResult Cursor :=
  let memberCount := r.nodeIds.length + r.edgeIds.length
  let pageEnd := min (offset + pageSize) memberCount
  let pageNodeIds :=
    slice r.nodeIds (min offset r.nodeIds.length) (min pageEnd r.nodeIds.length)
  let pageEdgeIds := slice r.edgeIds (offset - r.nodeIds.length) (pageEnd - r.nodeIds.length)
  { nodes := ((t.sessionNodes query.workspaceId query.sessionId).filter
      (·.id ∈ pageNodeIds)).insertionSort fun a b => a.id ≤ b.id
    edges := ((t.sessionEdges query.workspaceId query.sessionId).filter
      (·.id ∈ pageEdgeIds)).insertionSort fun a b => a.id ≤ b.id
    truncated := r.truncated
    nextCursor := if pageEnd < memberCount then some ⟨pageEnd, query⟩ else none }

/-- `_walk`, forward and along edges of every type. -/
def traceForward : TraceForward Cursor :=
  fun workspaceId sessionId nodeId maxDepth pageSize cursor =>
    if maxAllowedDepth < maxDepth then
      .error (.valueError ("max_depth must not exceed " ++ toString maxAllowedDepth))
    else if pageSize < 1 ∨ maxPageSize < pageSize then
      .error (.valueError ("page_size must be between 1 and " ++ toString maxPageSize))
    else do
      let query : Query := ⟨workspaceId, sessionId, nodeId, maxDepth⟩
      let offset ← decodeCursor cursor query
      let r := walkResult (t.sessionEdges workspaceId sessionId) nodeId maxDepth
      let memberCount := r.nodeIds.length + r.edgeIds.length
      if memberCount < offset ∨ offset = memberCount ∧ cursor.isSome then
        .error (.valueError "invalid traversal cursor")
      else .ok (t.page query r offset pageSize)

end ReasoningTables

/-! ### The rows are the simple walks -/

section Walks

variable {edges : List GraphEdge} {root : UUID} {d : ℕ}

/-- The graph that the query walks. -/
abbrev forwardGraph (edges : List GraphEdge) : Multigraph UUID GraphEdge :=
  listGraph GraphEdge.fromNode GraphEdge.toNode edges

/-- The row of a walk. -/
def rowOf (edges : List GraphEdge) (root : UUID) (es : List GraphEdge) : WalkRow :=
  ⟨(forwardGraph edges).walkEnd root es, es.length, (forwardGraph edges).vertices root es,
    es.getLast?.map (·.id)⟩

theorem rowOf_concat (es : List GraphEdge) (e : GraphEdge) : rowOf edges root (es ++ [e])
    = ⟨e.toNode, es.length + 1, (forwardGraph edges).vertices root es ++ [e.toNode], some e.id⟩ := by
  simp [rowOf, Multigraph.vertices, listGraph]

theorem mem_walkLevel {k : ℕ} {row : WalkRow} : row ∈ walkLevel edges root k
    ↔ ∃ es, (forwardGraph edges).IsSimple root es ∧ es.length = k ∧ row = rowOf edges root es := by
  induction k generalizing row with
  | zero =>
    rw [walkLevel, List.mem_singleton]
    constructor
    · rintro rfl
      exact ⟨[], Multigraph.isSimple_nil, rfl, rfl⟩
    · rintro ⟨es, -, hlength, rfl⟩
      rw [List.length_eq_zero_iff.mp hlength]
      rfl
  | succ k ih =>
    simp only [walkLevel, List.mem_flatMap, extendRow, List.mem_filterMap]
    constructor
    · rintro ⟨r, hr, e, he, hrow⟩
      obtain ⟨es, hes, rfl, rfl⟩ := ih.mp hr
      split at hrow
      · rename_i hjoin
        refine ⟨es ++ [e], Multigraph.isSimple_concat.mpr ⟨hes, ⟨he, hjoin.1⟩, hjoin.2⟩, by simp, ?_⟩
        rw [rowOf_concat]
        exact (Option.some.inj hrow).symm
      · cases hrow
    · rintro ⟨es, hes, hlength, rfl⟩
      cases es using List.reverseRecOn with
      | nil => cases hlength
      | append_singleton es e =>
        obtain ⟨hes, ⟨he, hsource⟩, hfresh⟩ := Multigraph.isSimple_concat.mp hes
        rw [List.length_append, List.length_singleton] at hlength
        refine ⟨rowOf edges root es, ih.mpr ⟨es, hes, Nat.succ.inj hlength, rfl⟩, e, he, ?_⟩
        rw [if_pos ⟨hsource, hfresh⟩, rowOf_concat]
        rfl

theorem mem_walkRows {row : WalkRow} : row ∈ walkRows edges root d ↔ ∃ es,
    (forwardGraph edges).IsSimple root es ∧ es.length ≤ d + 1 ∧ row = rowOf edges root es := by
  simp only [walkRows, List.mem_flatMap, List.mem_range, mem_walkLevel]
  constructor
  · rintro ⟨k, hk, es, hes, rfl, rfl⟩
    exact ⟨es, hes, Nat.lt_succ_iff.mp hk, rfl⟩
  · rintro ⟨es, hes, hlength, rfl⟩
    exact ⟨es.length, Nat.lt_succ_iff.mpr hlength, es, hes, rfl, rfl⟩

theorem mem_withinBound {row : WalkRow} :
    row ∈ (walkRows edges root d).filter (·.depth ≤ d) ↔ ∃ es,
      (forwardGraph edges).IsSimple root es ∧ es.length ≤ d ∧ row = rowOf edges root es := by
  rw [List.mem_filter, mem_walkRows]
  constructor
  · rintro ⟨⟨es, hes, -, rfl⟩, hdepth⟩
    exact ⟨es, hes, of_decide_eq_true hdepth, rfl⟩
  · rintro ⟨es, hes, hlength, rfl⟩
    exact ⟨⟨es, hes, Nat.le_succ_of_le hlength, rfl⟩, decide_eq_true hlength⟩

theorem mem_sortedIds {ids : List UUID} {id : UUID} : id ∈ sortedIds ids ↔ id ∈ ids := by
  simp [sortedIds]

/-- The nodes are the window. -/
theorem mem_nodeIds {id : UUID} : id ∈ (walkResult edges root d).nodeIds
    ↔ id ∈ (forwardGraph edges).window d root := by
  unfold walkResult
  simp only [mem_sortedIds, List.mem_map, mem_withinBound, Multigraph.mem_window_iff]
  constructor
  · rintro ⟨row, ⟨es, hes, hlength, rfl⟩, hid⟩
    exact ⟨es, hes, hlength, hid⟩
  · rintro ⟨es, hes, hlength, hid⟩
    exact ⟨_, ⟨es, hes, hlength, rfl⟩, hid⟩

/-- So are the edges. -/
theorem mem_edgeIds (hids : (edges.map (·.id)).Nodup) {e : GraphEdge} (he : e ∈ edges) :
    e.id ∈ (walkResult edges root d).edgeIds ↔ e ∈ (forwardGraph edges).edgeWindow d root := by
  unfold walkResult
  simp only [mem_sortedIds, List.mem_filterMap, mem_withinBound, Multigraph.mem_edgeWindow_iff]
  constructor
  · rintro ⟨row, ⟨es, hes, hlength, rfl⟩, hid⟩
    cases es using List.reverseRecOn with
    | nil => cases hid
    | append_singleton es f =>
      rw [rowOf_concat] at hid
      have hf : f ∈ edges := (Multigraph.isSimple_concat.mp hes).2.1.1
      obtain rfl : f = e := List.inj_on_of_nodup_map hids hf he (Option.some.inj hid)
      rw [List.length_append, List.length_singleton] at hlength
      exact ⟨es, hes, hlength⟩
  · rintro ⟨es, hes, hlength⟩
    refine ⟨rowOf edges root (es ++ [e]), ⟨es ++ [e], hes, ?_, rfl⟩, by rw [rowOf_concat]⟩
    rw [List.length_append, List.length_singleton]
    exact hlength

/-- The result is cut off when some walk is longer. -/
theorem truncated_iff :
    (walkResult edges root d).truncated = true ↔ (forwardGraph edges).Exceeds d root := by
  unfold walkResult
  simp only [decide_eq_true_eq, List.length_filter_lt_length_iff_exists, mem_walkRows]
  constructor
  · rintro ⟨row, ⟨es, hes, hlength, rfl⟩, hdepth⟩
    have hlong : ¬ es.length ≤ d := hdepth
    exact ⟨es, hes, by omega⟩
  · rintro ⟨es, hes, hlength⟩
    refine ⟨rowOf edges root es, ⟨es, hes, hlength.le, rfl⟩, fun hdepth => ?_⟩
    have hshort : es.length ≤ d := hdepth
    omega

end Walks

/-! ### The pages are the result -/

section Slices

variable {α : Type} (l : List α)

theorem drop_eq_slice_append {start stop : ℕ} (h : start ≤ stop) :
    l.drop start = slice l start stop ++ l.drop stop := by
  unfold slice
  conv_lhs => rw [← List.take_append_drop stop l]
  rw [List.drop_append, List.length_take]
  by_cases hstop : stop ≤ l.length
  · rw [min_eq_left hstop, Nat.sub_eq_zero_of_le h, List.drop_zero]
  · rw [List.drop_eq_nil_of_le (not_le.mp hstop).le]
    simp

theorem slice_min (start stop : ℕ) :
    slice l (min start l.length) (min stop l.length) = slice l start stop := by
  have htake : l.take (min stop l.length) = l.take stop := by
    by_cases hstop : stop ≤ l.length
    · rw [min_eq_left hstop]
    · rw [min_eq_right (not_le.mp hstop).le, List.take_length, List.take_of_length_le
        (not_le.mp hstop).le]
  unfold slice
  rw [htake]
  by_cases hstart : start ≤ l.length
  · rw [min_eq_left hstart]
  · have hlength : (l.take stop).length ≤ l.length := List.length_take_le' _ _
    rw [min_eq_right (not_le.mp hstart).le, List.drop_eq_nil_of_le hlength,
      List.drop_eq_nil_of_le (hlength.trans (not_le.mp hstart).le)]

end Slices

section Store

variable {t : ReasoningTables} {query : Query} {r : WalkResult}

/-- The nodes of a page are those of its slice of the result, and so are the edges. -/
theorem mem_page_nodes {offset pageSize : ℕ} {v : GraphNode} :
    v ∈ (t.page query r offset pageSize).nodes
      ↔ v ∈ t.sessionNodes query.workspaceId query.sessionId
        ∧ v.id ∈ slice r.nodeIds offset
          (min (offset + pageSize) (r.nodeIds.length + r.edgeIds.length)) := by
  unfold ReasoningTables.page
  rw [List.mem_insertionSort, List.mem_filter, slice_min, decide_eq_true_eq]

theorem mem_page_edges {offset pageSize : ℕ} {e : GraphEdge} :
    e ∈ (t.page query r offset pageSize).edges
      ↔ e ∈ t.sessionEdges query.workspaceId query.sessionId
        ∧ e.id ∈ slice r.edgeIds (offset - r.nodeIds.length)
          (min (offset + pageSize) (r.nodeIds.length + r.edgeIds.length) - r.nodeIds.length) := by
  unfold ReasoningTables.page
  rw [List.mem_insertionSort, List.mem_filter, decide_eq_true_eq]

/-- The members from an offset on. -/
structure MembersFrom (t : ReasoningTables) (query : Query) (r : WalkResult) (offset : ℕ)
    (pages : List (TraversalResult Cursor)) : Prop where
  nodes : ∀ v, (∃ p ∈ pages, v ∈ p.nodes)
    ↔ v ∈ t.sessionNodes query.workspaceId query.sessionId ∧ v.id ∈ r.nodeIds.drop offset
  edges : ∀ e, (∃ p ∈ pages, e ∈ p.edges)
    ↔ e ∈ t.sessionEdges query.workspaceId query.sessionId
      ∧ e.id ∈ r.edgeIds.drop (offset - r.nodeIds.length)
  truncated : (∃ p ∈ pages, p.truncated = true) ↔ r.truncated = true

/-- The last page. -/
theorem membersFrom_singleton {offset pageSize : ℕ}
    (hend : r.nodeIds.length + r.edgeIds.length ≤ offset + pageSize)
    (hoffset : offset ≤ r.nodeIds.length + r.edgeIds.length) :
    MembersFrom t query r offset [t.page query r offset pageSize] := by
  have hnodes := drop_eq_slice_append r.nodeIds hoffset
  have hedges := drop_eq_slice_append r.edgeIds (Nat.sub_le_sub_right hoffset r.nodeIds.length)
  rw [List.drop_eq_nil_of_le (Nat.le_add_right _ _), List.append_nil] at hnodes
  rw [Nat.add_sub_cancel_left, List.drop_length, List.append_nil] at hedges
  refine ⟨fun v => ?_, fun e => ?_, by simp [ReasoningTables.page]⟩
  · rw [hnodes, ← min_eq_right hend]
    simp [mem_page_nodes]
  · rw [hedges, ← Nat.add_sub_cancel_left r.nodeIds.length r.edgeIds.length, ← min_eq_right hend]
    simp [mem_page_edges]

/-- One page and those behind it. -/
theorem MembersFrom.cons {offset pageSize : ℕ} {pages : List (TraversalResult Cursor)}
    (hend : offset + pageSize < r.nodeIds.length + r.edgeIds.length)
    (h : MembersFrom t query r (offset + pageSize) pages) :
    MembersFrom t query r offset (t.page query r offset pageSize :: pages) := by
  have hle : offset ≤ offset + pageSize := Nat.le_add_right _ _
  have hnodes := drop_eq_slice_append r.nodeIds hle
  have hedges := drop_eq_slice_append r.edgeIds (Nat.sub_le_sub_right hle r.nodeIds.length)
  refine ⟨fun v => ?_, fun e => ?_, ?_⟩
  · rw [List.exists_mem_cons_iff, h.nodes, mem_page_nodes, min_eq_left hend.le, hnodes,
      List.mem_append]
    tauto
  · rw [List.exists_mem_cons_iff, h.edges, mem_page_edges, min_eq_left hend.le, hedges,
      List.mem_append]
    tauto
  · rw [List.exists_mem_cons_iff, h.truncated]
    simp [ReasoningTables.page]

variable {workspaceId sessionId nodeId : UUID} {maxDepth pageSize : ℕ}

/-- A request with a cursor that the store gave out, or the first one. -/
theorem traceForward_eq (hdepth : maxDepth ≤ maxAllowedDepth)
    (hsize : 1 ≤ pageSize ∧ pageSize ≤ maxPageSize) {cursor : Option Cursor} {offset : ℕ}
    (hr : walkResult (t.sessionEdges workspaceId sessionId) nodeId maxDepth = r)
    (hcursor : cursor = none ∧ offset = 0
      ∨ cursor = some ⟨offset, ⟨workspaceId, sessionId, nodeId, maxDepth⟩⟩
        ∧ offset < r.nodeIds.length + r.edgeIds.length) :
    t.traceForward workspaceId sessionId nodeId maxDepth pageSize cursor
      = .ok (t.page ⟨workspaceId, sessionId, nodeId, maxDepth⟩ r offset pageSize) := by
  have hbad : ¬ (pageSize < 1 ∨ maxPageSize < pageSize) := by omega
  have hdecode : decodeCursor cursor ⟨workspaceId, sessionId, nodeId, maxDepth⟩ = .ok offset := by
    rcases hcursor with ⟨rfl, rfl⟩ | ⟨rfl, -⟩
    · rfl
    · simp [decodeCursor]
  have hvalid : ¬ (r.nodeIds.length + r.edgeIds.length < offset
      ∨ offset = r.nodeIds.length + r.edgeIds.length ∧ cursor.isSome = true) := by
    rcases hcursor with ⟨rfl, rfl⟩ | ⟨-, hlt⟩
    · simp
    · omega
  unfold ReasoningTables.traceForward
  rw [if_neg (not_lt.mpr hdepth), if_neg hbad]
  simp only [hdecode, Except.ok_bind, hr]
  rw [if_neg hvalid]

/-- **Pages.**  The pages from a cursor are the members from its offset on. -/
theorem exists_pages (hdepth : maxDepth ≤ maxAllowedDepth)
    (hsize : 1 ≤ pageSize ∧ pageSize ≤ maxPageSize)
    (hr : walkResult (t.sessionEdges workspaceId sessionId) nodeId maxDepth = r)
    {cursor : Option Cursor} {offset : ℕ}
    (hcursor : cursor = none ∧ offset = 0
      ∨ cursor = some ⟨offset, ⟨workspaceId, sessionId, nodeId, maxDepth⟩⟩
        ∧ offset < r.nodeIds.length + r.edgeIds.length) :
    ∃ pages, Pages (t.traceForward workspaceId sessionId nodeId maxDepth pageSize) cursor pages
      ∧ MembersFrom t ⟨workspaceId, sessionId, nodeId, maxDepth⟩ r offset pages := by
  -- Every page takes the offset further to the end.
  generalize hleft : r.nodeIds.length + r.edgeIds.length - offset = left
  induction left using Nat.strong_induction_on generalizing offset cursor with
  | _ left ih =>
    have hpage := traceForward_eq (t := t) hdepth hsize hr hcursor
    by_cases hend : offset + pageSize < r.nodeIds.length + r.edgeIds.length
    · obtain ⟨pages, hpages, hmembers⟩ := ih
        (r.nodeIds.length + r.edgeIds.length - (offset + pageSize)) (by omega)
        (.inr ⟨rfl, hend⟩) rfl
      refine ⟨_, .more hpage ?_ hpages, hmembers.cons hend⟩
      simp [ReasoningTables.page, min_eq_left hend.le, hend]
    · have hoffset : offset ≤ r.nodeIds.length + r.edgeIds.length := by
        rcases hcursor with ⟨-, rfl⟩ | ⟨-, hlt⟩ <;> omega
      refine ⟨_, .last hpage ?_, membersFrom_singleton (not_lt.mp hend) hoffset⟩
      simp [ReasoningTables.page, min_eq_right (not_lt.mp hend)]

/-- **Windows.**  The store serves the windows of the graphs of its sessions. -/
theorem serves_traceForward (hdepth : maxDepth ≤ maxAllowedDepth) :
    Serves t.traceForward t maxDepth := by
  intro w n start _
  have hids : ((t.sessionEdges w n).map (·.id)).Nodup :=
    t.edge_ids.sublist (List.filter_sublist.map _)
  obtain ⟨pages, hpages, hmembers⟩ := exists_pages (t := t) hdepth
    ⟨by decide, le_rfl⟩ rfl (.inl ⟨rfl, rfl⟩)
  refine ⟨pages, hpages, fun v => ?_, fun e => ?_, ?_⟩
  · rw [hmembers.nodes, List.drop_zero, mem_nodeIds]
    rfl
  · rw [hmembers.edges, Nat.zero_sub, List.drop_zero]
    constructor
    · rintro ⟨he, hid⟩
      exact (mem_edgeIds hids he).mp hid
    · intro he
      have hmem : e ∈ t.sessionEdges w n := Multigraph.edge_of_mem_edgeWindow he
      exact ⟨hmem, (mem_edgeIds hids hmem).mpr he⟩
  · rw [hmembers.truncated, truncated_iff]
    rfl

end Store

end Agora.Impact
