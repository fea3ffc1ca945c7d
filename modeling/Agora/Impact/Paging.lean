import Agora.Impact.Cursors
import Agora.Impact.Exactness
import Agora.Lib.JsonLeaves

namespace Agora.Impact.GraphStore

/-!
# Paging

A walk has found ids of nodes and of edges.  Its pages are slices of the one list of both, and each
cursor is the end of a slice, so following the cursors lists every id once that is there
(`exists_pages_walk`).
-/

/-! ### The store -/

/-- A row of the recursive query. -/
structure FoundRow where
  nodeId : UUID
  depth : ℕ
  edgeId : Option UUID

/-- What the rows within the bound are about. -/
def resultOf (maxDepth : ℤ) (rows : List FoundRow) : WalkResult :=
  let withinBound := rows.filter fun row => (row.depth : ℤ) ≤ maxDepth
  { nodeIds := sortedIds (withinBound.map (·.nodeId))
    edgeIds := sortedIds (withinBound.filterMap (·.edgeId))
    truncated := withinBound.length < rows.length }

section Store

variable (t : ReasoningTables)

/-- The nodes of the session with these ids, in their order. -/
def selectNodes (q : GraphQuery) (ids : List UUID) : List GraphNode :=
  ((t.sessionNodes q.workspaceId q.sessionId).filter (·.id ∈ ids)).insertionSort
    fun a b => a.id ≤ b.id

/-- The edges of the session with these ids, in their order. -/
def selectEdges (q : GraphQuery) (ids : List UUID) : List GraphEdge :=
  ((t.sessionEdges q.workspaceId q.sessionId).filter (·.id ∈ ids)).insertionSort
    fun a b => a.id ≤ b.id

/-- The members of the result from an offset on: first the nodes, then the edges. -/
def pageOf (q : GraphQuery) (r : WalkResult) (offset pageSize : ℕ) : TraversalResult (List Char) :=
  let memberCount := r.nodeIds.length + r.edgeIds.length
  let pageEnd := min (offset + pageSize) memberCount
  let nodeStart := min offset r.nodeIds.length
  let nodeEnd := min pageEnd r.nodeIds.length
  let edgeStart := offset - r.nodeIds.length
  let edgeEnd := pageEnd - r.nodeIds.length
  { nodes := selectNodes t q (slice r.nodeIds nodeStart nodeEnd)
    edges := selectEdges t q (slice r.edgeIds edgeStart edgeEnd)
    truncated := r.truncated
    nextCursor :=
      if pageEnd < memberCount then some (encodeCursor pageEnd (queryFingerprint q)) else none }

/-- `_walk`.  What the recursive query finds is in `rows`. -/
def walk (decode : Json.Encoding → Bytes → Py (List Char)) (rows : GraphQuery → List FoundRow)
    (q : GraphQuery) (depthCap pageSize : ℤ) (cursor : Option (List Char)) :
    Py (TraversalResult (List Char)) :=
  if q.maxDepth < 0 then .error (.valueError "max_depth must not be negative")
  else if depthCap < q.maxDepth then
    .error (.valueError ("max_depth must not exceed " ++ toString depthCap))
  else if pageSize < 1 ∨ (maxPageSize : ℤ) < pageSize then
    .error (.valueError ("page_size must be between 1 and " ++ toString maxPageSize))
  else do
    let offset ← decodeCursor decode cursor (queryFingerprint q)
    let r := resultOf q.maxDepth (rows q)
    let memberCount := r.nodeIds.length + r.edgeIds.length
    if memberCount < offset ∨ offset = memberCount ∧ cursor.isSome then .error invalidCursor
    else .ok (pageOf t q r offset pageSize.toNat)

/-! ### Members -/

/-- The id of a node or of an edge. -/
abbrev MemberId := UUID ⊕ UUID

/-- What a page lists. -/
def members {κ : Type} (page : TraversalResult κ) : List MemberId :=
  page.nodes.map (fun v => .inl v.id) ++ page.edges.map fun e => .inr e.id

/-- The ids of the result, those of nodes first. -/
def memberIds (r : WalkResult) : List MemberId := r.nodeIds.map .inl ++ r.edgeIds.map .inr

/-- The session has the node or the edge. -/
def IsThere (q : GraphQuery) : MemberId → Prop
  | .inl id => ∃ v ∈ t.sessionNodes q.workspaceId q.sessionId, v.id = id
  | .inr id => ∃ e ∈ t.sessionEdges q.workspaceId q.sessionId, e.id = id

instance (q : GraphQuery) (m : MemberId) : Decidable (IsThere t q m) := by
  cases m <;> exact inferInstanceAs (Decidable (∃ _ ∈ _, _))

end Store

/-! ### Sorted ids -/

/-- There are 2¹²⁸ UUIDs. -/
theorem length_le_of_nodup {ids : List UUID} (h : ids.Nodup) : ids.length ≤ 2 ^ 128 := by
  have hinjective : Function.Injective UUID.int := Function.LeftInverse.injective UUID.ofInt_int
  have hsubset : (ids.map UUID.int).toFinset ⊆ Finset.range (2 ^ 128) := by
    intro n hn
    obtain ⟨v, -, rfl⟩ := List.mem_map.mp (List.mem_toFinset.mp hn)
    exact Finset.mem_range.mpr v.int_lt
  have hcard := Finset.card_le_card hsubset
  rwa [Finset.card_range, List.toFinset_card_of_nodup (h.map hinjective), List.length_map] at hcard

theorem pairwise_sortedIds (ids : List UUID) : (sortedIds ids).Pairwise (· < ·) := by
  have hle : (sortedIds ids).Pairwise (· ≤ ·) := List.pairwise_insertionSort _ _
  have hne : (sortedIds ids).Pairwise (· ≠ ·) :=
    (List.perm_insertionSort _ _).nodup_iff.mpr (List.nodup_dedup ids)
  exact hle.imp₂ (fun a b hab hne => lt_of_le_of_ne hab hne) hne

/-- What is selected by sorted ids has the ids that are there. -/
theorem map_select {α : Type} (key : α → UUID) {l : List α} (hl : (l.map key).Nodup)
    {ids : List UUID} (hids : ids.Pairwise (· < ·)) :
    ((l.filter (key · ∈ ids)).insertionSort fun a b => key a ≤ key b).map key
      = ids.filter fun id => ∃ a ∈ l, key a = id := by
  have hperm := List.perm_insertionSort (fun a b => key a ≤ key b) (l.filter (key · ∈ ids))
  apply List.Pairwise.eq_of_mem_iff (r := (· < ·))
  · have : Std.Total fun a b : α => key a ≤ key b := ⟨fun a b => le_total (key a) (key b)⟩
    have : IsTrans α fun a b => key a ≤ key b := ⟨fun a b c => le_trans⟩
    have hle := List.pairwise_map.mpr (List.pairwise_insertionSort (fun a b => key a ≤ key b)
      (l.filter (key · ∈ ids)))
    have hne : (((l.filter (key · ∈ ids)).insertionSort fun a b => key a ≤ key b).map key).Nodup :=
      (hperm.map key).nodup_iff.mpr (hl.sublist (List.filter_sublist.map key))
    exact hle.imp₂ (fun a b hab hne => lt_of_le_of_ne hab hne) hne
  · exact hids.filter _
  · intro id
    rw [List.mem_map, List.mem_filter, decide_eq_true_eq]
    constructor
    · rintro ⟨a, ha, rfl⟩
      obtain ⟨ha, hkey⟩ := List.mem_filter.mp (hperm.mem_iff.mp ha)
      exact ⟨of_decide_eq_true hkey, a, ha, rfl⟩
    · rintro ⟨hid, a, ha, rfl⟩
      exact ⟨a, hperm.mem_iff.mpr (List.mem_filter.mpr ⟨ha, decide_eq_true hid⟩), rfl⟩

theorem pairwise_slice {ids : List UUID} (h : ids.Pairwise (· < ·)) (start stop : ℕ) :
    (slice ids start stop).Pairwise (· < ·) :=
  h.sublist ((List.drop_sublist _ _).trans (List.take_sublist _ _))

theorem slice_append {α : Type} (l l' : List α) (start stop : ℕ) :
    slice (l ++ l') start stop
      = slice l start stop ++ slice l' (start - l.length) (stop - l.length) := by
  unfold slice
  rw [List.take_append, List.drop_append, List.length_take]
  by_cases hstop : stop ≤ l.length
  · rw [Nat.sub_eq_zero_of_le hstop, List.take_zero, List.drop_nil, List.drop_nil]
  · rw [min_eq_right (not_le.mp hstop).le]

theorem slice_map {α β : Type} (f : α → β) (l : List α) (start stop : ℕ) :
    slice (l.map f) start stop = (slice l start stop).map f := by
  unfold slice
  rw [List.map_drop, List.map_take]

/-! ### What a page lists -/

section Listed

variable {t : ReasoningTables} {q : GraphQuery} {r : WalkResult}

theorem map_selectNodes {ids : List UUID} (hids : ids.Pairwise (· < ·)) :
    (selectNodes t q ids).map (fun v => Sum.inl v.id)
      = (ids.map Sum.inl : List MemberId).filter (IsThere t q) := by
  have hnodup : ((t.sessionNodes q.workspaceId q.sessionId).map (·.id)).Nodup :=
    t.node_ids.sublist (List.filter_sublist.map _)
  have hselect := congrArg (List.map (Sum.inl : UUID → MemberId))
    (map_select GraphNode.id hnodup hids)
  rw [List.map_map] at hselect
  rw [List.filter_map]
  exact hselect

theorem map_selectEdges {ids : List UUID} (hids : ids.Pairwise (· < ·)) :
    (selectEdges t q ids).map (fun e => Sum.inr e.id)
      = (ids.map Sum.inr : List MemberId).filter (IsThere t q) := by
  have hnodup : ((t.sessionEdges q.workspaceId q.sessionId).map (·.id)).Nodup :=
    t.edge_ids.sublist (List.filter_sublist.map _)
  have hselect := congrArg (List.map (Sum.inr : UUID → MemberId))
    (map_select GraphEdge.id hnodup hids)
  rw [List.map_map] at hselect
  rw [List.filter_map]
  exact hselect

/-- A page lists what is there of one slice of the ids. -/
theorem members_pageOf (hnodes : r.nodeIds.Pairwise (· < ·)) (hedges : r.edgeIds.Pairwise (· < ·))
    (offset pageSize : ℕ) :
    members (pageOf t q r offset pageSize)
      = (slice (memberIds r) offset
          (min (offset + pageSize) (r.nodeIds.length + r.edgeIds.length))).filter
        (IsThere t q) := by
  unfold members pageOf memberIds
  simp only
  rw [slice_min, map_selectNodes (pairwise_slice hnodes _ _),
    map_selectEdges (pairwise_slice hedges _ _), slice_append, List.length_map, slice_map,
    slice_map, List.filter_append]

theorem length_memberIds : (memberIds r).length = r.nodeIds.length + r.edgeIds.length := by
  simp [memberIds]

/-- What is there from an offset on is what the page lists and what is there behind it. -/
theorem members_pageOf_append (hnodes : r.nodeIds.Pairwise (· < ·))
    (hedges : r.edgeIds.Pairwise (· < ·)) {offset pageSize stop : ℕ}
    (hoffset : offset ≤ (memberIds r).length)
    (hstop : min (offset + pageSize) (memberIds r).length = stop) :
    members (pageOf t q r offset pageSize) ++ ((memberIds r).drop stop).filter (IsThere t q)
      = ((memberIds r).drop offset).filter (IsThere t q) := by
  have hle : offset ≤ stop := by
    rw [← hstop]
    exact le_min (Nat.le_add_right _ _) hoffset
  rw [members_pageOf hnodes hedges, ← length_memberIds, hstop, ← List.filter_append,
    ← drop_eq_slice_append _ hle]

/-- The pages from an offset on list what is there from it on. -/
structure PagesFrom (t : ReasoningTables) (q : GraphQuery) (r : WalkResult) (offset : ℕ)
    (pages : List (TraversalResult (List Char))) : Prop where
  members : pages.flatMap members = ((memberIds r).drop offset).filter (IsThere t q)
  truncated : ∀ page ∈ pages, page.truncated = r.truncated
  cursors : ∀ page ∈ pages, ∀ c ∈ page.nextCursor, ∃ stop < (memberIds r).length,
    c = encodeCursor stop (queryFingerprint q)

/-- The last page. -/
theorem pagesFrom_singleton (hnodes : r.nodeIds.Pairwise (· < ·))
    (hedges : r.edgeIds.Pairwise (· < ·)) {offset pageSize : ℕ}
    (hoffset : offset ≤ (memberIds r).length) (hend : (memberIds r).length ≤ offset + pageSize) :
    PagesFrom t q r offset [pageOf t q r offset pageSize] := by
  refine ⟨?_, by simp [pageOf], ?_⟩
  · rw [← members_pageOf_append hnodes hedges hoffset (min_eq_right hend), List.drop_length]
    simp
  · rw [length_memberIds] at hend
    simp [pageOf, min_eq_right hend]

/-- One page and those behind it. -/
theorem PagesFrom.cons (hnodes : r.nodeIds.Pairwise (· < ·)) (hedges : r.edgeIds.Pairwise (· < ·))
    {offset pageSize : ℕ} {pages : List (TraversalResult (List Char))}
    (hend : offset + pageSize < (memberIds r).length)
    (h : PagesFrom t q r (offset + pageSize) pages) :
    PagesFrom t q r offset (pageOf t q r offset pageSize :: pages) := by
  have hoffset : offset ≤ (memberIds r).length := by omega
  refine ⟨?_, List.forall_mem_cons.mpr ⟨rfl, h.truncated⟩, List.forall_mem_cons.mpr ⟨?_, h.cursors⟩⟩
  · rw [List.flatMap_cons, h.members, members_pageOf_append hnodes hedges hoffset
      (min_eq_left hend.le)]
  · have hlength := length_memberIds (r := r)
    intro c hc
    rw [hlength] at hend
    simp only [pageOf, min_eq_left hend.le, if_pos hend, Option.mem_some_iff] at hc
    exact ⟨_, hlength ▸ hend, hc.symm⟩

end Listed

/-! ### Bounds -/

theorem isPrintable_of_lt_members {r : WalkResult} (hnodes : r.nodeIds.Nodup)
    (hedges : r.edgeIds.Nodup) {offset : ℕ} (h : offset < (memberIds r).length) :
    Json.isPrintable offset = true := by
  have hdigits : (2 : ℕ) ^ 128 + 2 ^ 128 ≤ 10 ^ 40 := by decide
  have hprintable : (10 : ℕ) ^ 40 ≤ 10 ^ Json.maxStrDigits :=
    Nat.pow_le_pow_right (by decide) (by decide)
  apply Json.isPrintable_of_lt
  calc offset < r.nodeIds.length + r.edgeIds.length := length_memberIds ▸ h
    _ ≤ 2 ^ 128 + 2 ^ 128 := Nat.add_le_add (length_le_of_nodup hnodes) (length_le_of_nodup hedges)
    _ ≤ 10 ^ Json.maxStrDigits := hdigits.trans hprintable

/-! ### Requests -/

section Requests

variable {t : ReasoningTables} {decode : Json.Encoding → Bytes → Py (List Char)}
  {rows : GraphQuery → List FoundRow} {q : GraphQuery} {depthCap pageSize : ℤ}

theorem pairwise_nodeIds (d : ℤ) (found : List FoundRow) :
    (resultOf d found).nodeIds.Pairwise (· < ·) := pairwise_sortedIds _

theorem pairwise_edgeIds (d : ℤ) (found : List FoundRow) :
    (resultOf d found).edgeIds.Pairwise (· < ·) := pairwise_sortedIds _

/-- A cursor of one query is refused with a query of another fingerprint. -/
theorem walk_foreign_cursor {offset : ℕ} (hprint : Json.isPrintable offset = true)
    {fingerprint : List Char} (h : fingerprint ≠ queryFingerprint q) :
    ∃ text, walk t decode rows q depthCap pageSize (some (encodeCursor offset fingerprint))
      = .error (.valueError text) := by
  have hdecode : decodeCursor decode (some (encodeCursor offset fingerprint)) (queryFingerprint q)
      = .error invalidCursor := by
    rw [decodeCursor_encodeCursor hprint, if_neg h]
  unfold walk
  split
  · exact ⟨_, rfl⟩
  split
  · exact ⟨_, rfl⟩
  split
  · exact ⟨_, rfl⟩
  simp only [hdecode, Except.error_bind]
  exact ⟨_, rfl⟩

section Run

variable (t decode rows)

/-- The first request, or one with a cursor of an earlier page. -/
theorem walk_eq_ok (hdepth : 0 ≤ q.maxDepth ∧ q.maxDepth ≤ depthCap)
    (hsize : 1 ≤ pageSize ∧ pageSize ≤ maxPageSize) {cursor : Option (List Char)} {offset : ℕ}
    (hcursor : cursor = none ∧ offset = 0
      ∨ cursor = some (encodeCursor offset (queryFingerprint q))
        ∧ offset < (memberIds (resultOf q.maxDepth (rows q))).length) :
    walk t decode rows q depthCap pageSize cursor
      = .ok (pageOf t q (resultOf q.maxDepth (rows q)) offset pageSize.toNat) := by
  have hdecode : decodeCursor decode cursor (queryFingerprint q) = .ok offset := by
    rcases hcursor with ⟨rfl, rfl⟩ | ⟨rfl, hlt⟩
    · rfl
    · have hprint := isPrintable_of_lt_members (pairwise_nodeIds _ _).nodup
        (pairwise_edgeIds _ _).nodup hlt
      rw [decodeCursor_encodeCursor hprint, if_pos rfl]
  have hvalid : ¬ ((memberIds (resultOf q.maxDepth (rows q))).length < offset
      ∨ offset = (memberIds (resultOf q.maxDepth (rows q))).length ∧ cursor.isSome = true) := by
    rcases hcursor with ⟨rfl, rfl⟩ | ⟨-, hlt⟩
    · simp
    · omega
  rw [length_memberIds] at hvalid
  unfold walk
  rw [if_neg (not_lt.mpr hdepth.1), if_neg (not_lt.mpr hdepth.2), if_neg (by omega)]
  simp only [hdecode, Except.ok_bind]
  rw [if_neg hvalid]

/-- The pages from a cursor list what is there from its offset on. -/
theorem exists_pagesFrom (hdepth : 0 ≤ q.maxDepth ∧ q.maxDepth ≤ depthCap)
    (hsize : 1 ≤ pageSize ∧ pageSize ≤ maxPageSize) {cursor : Option (List Char)} {offset : ℕ}
    (hcursor : cursor = none ∧ offset = 0
      ∨ cursor = some (encodeCursor offset (queryFingerprint q))
        ∧ offset < (memberIds (resultOf q.maxDepth (rows q))).length) :
    ∃ pages, Pages (walk t decode rows q depthCap pageSize) cursor pages
      ∧ PagesFrom t q (resultOf q.maxDepth (rows q)) offset pages := by
  -- Every page takes the offset further to the end.
  generalize hleft : (memberIds (resultOf q.maxDepth (rows q))).length - offset = left
  induction left using Nat.strong_induction_on generalizing offset cursor with
  | _ left ih =>
    have hnodes := pairwise_nodeIds q.maxDepth (rows q)
    have hedges := pairwise_edgeIds q.maxDepth (rows q)
    have hcount := length_memberIds (r := resultOf q.maxDepth (rows q))
    have hpage := walk_eq_ok t decode rows hdepth hsize hcursor
    by_cases hend : offset + pageSize.toNat < (memberIds (resultOf q.maxDepth (rows q))).length
    · obtain ⟨pages, hpages, hfrom⟩ := ih _ (by omega) (.inr ⟨rfl, hend⟩) rfl
      refine ⟨_, .more hpage ?_ hpages, hfrom.cons hnodes hedges hend⟩
      rw [hcount] at hend
      simp [pageOf, min_eq_left hend.le, hend]
    · have hoffset : offset ≤ (memberIds (resultOf q.maxDepth (rows q))).length := by
        rcases hcursor with ⟨-, rfl⟩ | ⟨-, hlt⟩ <;> omega
      refine ⟨_, .last hpage ?_, pagesFrom_singleton hnodes hedges hoffset (not_lt.mp hend)⟩
      rw [hcount] at hend
      simp [pageOf, min_eq_right (not_lt.mp hend)]

/-- **Pages.**  Following the cursors from the first page lists every found node of the session once
and in order, and then every found edge of it, with the same mark on every page; a cursor of such a
page is refused with a query of another fingerprint. -/
theorem exists_pages_walk (hdepth : 0 ≤ q.maxDepth ∧ q.maxDepth ≤ depthCap)
    (hsize : 1 ≤ pageSize ∧ pageSize ≤ maxPageSize) :
    (resultOf q.maxDepth (rows q)).nodeIds.Pairwise (· < ·)
    ∧ (resultOf q.maxDepth (rows q)).edgeIds.Pairwise (· < ·)
    ∧ ∃ pages, Pages (walk t decode rows q depthCap pageSize) none pages
      ∧ pages.flatMap members = (memberIds (resultOf q.maxDepth (rows q))).filter (IsThere t q)
      ∧ (∀ page ∈ pages, page.truncated = (resultOf q.maxDepth (rows q)).truncated)
      ∧ ∀ page ∈ pages, ∀ c ∈ page.nextCursor,
        ∀ (t' : ReasoningTables) (rows' : GraphQuery → List FoundRow) (q' : GraphQuery)
          (depthCap' pageSize' : ℤ), queryFingerprint q ≠ queryFingerprint q' →
          ∃ text, walk t' decode rows' q' depthCap' pageSize' (some c)
            = .error (.valueError text) := by
  obtain ⟨pages, hpages, hfrom⟩ := exists_pagesFrom t decode rows hdepth hsize (.inl ⟨rfl, rfl⟩)
  refine ⟨pairwise_nodeIds _ _, pairwise_edgeIds _ _, pages, hpages, ?_, hfrom.truncated, ?_⟩
  · rw [hfrom.members, List.drop_zero]
  · intro page hpage c hc t' rows' q' depthCap' pageSize' hne
    obtain ⟨stop, hstop, rfl⟩ := hfrom.cursors page hpage c hc
    exact walk_foreign_cursor (isPrintable_of_lt_members (pairwise_nodeIds _ _).nodup
      (pairwise_edgeIds _ _).nodup hstop) hne

end Run

theorem Pages.exists_request {κ : Type} {request : Option κ → Py (TraversalResult κ)}
    {cursor : Option κ} {pages : List (TraversalResult κ)} (h : Pages request cursor pages) :
    ∀ page ∈ pages, ∃ cursor', request cursor' = .ok page := by
  induction h with
  | last hpage _ => exact List.forall_mem_singleton.mpr ⟨_, hpage⟩
  | more hpage _ _ ih => exact List.forall_mem_cons.mpr ⟨⟨_, hpage⟩, ih⟩

/-- A page has nodes of the session only. -/
theorem mem_sessionNodes_of_walk {cursor : Option (List Char)} {page : TraversalResult (List Char)}
    (h : walk t decode rows q depthCap pageSize cursor = .ok page) {v : GraphNode}
    (hv : v ∈ page.nodes) : v ∈ t.sessionNodes q.workspaceId q.sessionId := by
  have hpage : ∃ offset size, page = pageOf t q (resultOf q.maxDepth (rows q)) offset size := by
    unfold walk at h
    split at h
    · cases h
    split at h
    · cases h
    split at h
    · cases h
    obtain ⟨offset, -, h⟩ := Except.bind_eq_ok.mp h
    simp only at h
    split at h
    · cases h
    exact ⟨offset, _, (Except.ok.inj h).symm⟩
  obtain ⟨offset, size, rfl⟩ := hpage
  exact (List.mem_filter.mp (List.mem_insertionSort _ |>.mp hv)).1

end Requests

/-! ### An unknown root -/

/-- A walk forward from a node. -/
def forwardFrom (root : UUID) : GraphQuery where
  direction := .forward
  workspaceId := smallId 0
  sessionId := smallId 0
  rootIds := [root]
  maxDepth := 12
  edgeTypes := none

/-- What it finds along the edge of `pair`. -/
def pairRows : List FoundRow := [⟨smallId 0, 0, none⟩, ⟨smallId 1, 1, some (smallId 0)⟩]

/-- No text in another encoding than UTF-8 occurs. -/
def undecodable (_ : Json.Encoding) (_ : Bytes) : Py (List Char) :=
  .error (.valueError "undecodable")

theorem exists_pages_walk_pair :
    ∃ pages, Pages (walk pair undecodable (fun _ => pairRows) (forwardFrom (smallId 0)) 12 1) none
        pages
      ∧ pages.flatMap members = [.inl (smallId 0), .inl (smallId 1), .inr (smallId 0)] := by
  obtain ⟨-, -, pages, hpages, hmembers, -⟩ := @exists_pages_walk pair undecodable
    (fun _ => pairRows) (forwardFrom (smallId 0)) 12 1 (by decide) (by decide)
  refine ⟨pages, hpages, hmembers.trans ?_⟩
  decide +kernel

/-- The root is found without being a node of the session, and no page lists it. -/
theorem not_exists_pages_walk : ¬ ∀ (t : ReasoningTables)
    (decode : Json.Encoding → Bytes → Py (List Char)) (rows : GraphQuery → List FoundRow)
    (q : GraphQuery) (depthCap pageSize : ℤ), 0 ≤ q.maxDepth ∧ q.maxDepth ≤ depthCap →
    1 ≤ pageSize ∧ pageSize ≤ maxPageSize →
    ∃ pages, Pages (walk t decode rows q depthCap pageSize) none pages
      ∧ pages.flatMap members = memberIds (resultOf q.maxDepth (rows q)) := by
  intro hall
  obtain ⟨pages, hpages, hmembers⟩ := hall pair undecodable
    (fun _ => [⟨smallId 7, 0, none⟩]) (forwardFrom (smallId 7)) 12 1 (by decide) (by decide)
  have hroot : Sum.inl (smallId 7) ∈ pages.flatMap members := by
    rw [hmembers]
    exact List.mem_append_left _ (List.mem_map_of_mem (by decide +kernel))
  obtain ⟨page, hpage, hmem⟩ := List.mem_flatMap.mp hroot
  obtain ⟨cursor, hwalk⟩ := Pages.exists_request hpages page hpage
  have hnode : ∃ v ∈ page.nodes, v.id = smallId 7 := by simpa [members] using hmem
  obtain ⟨v, hv, hid⟩ := hnode
  have hthere := (ReasoningTables.mem_sessionNodes.mp (mem_sessionNodes_of_walk hwalk hv)).1
  have hids : v.id ∈ pair.nodes.map (·.id) := List.mem_map_of_mem hthere
  rw [hid] at hids
  revert hids
  decide +kernel

end Agora.Impact.GraphStore
