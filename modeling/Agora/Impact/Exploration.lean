import Agora.Impact.Analysis
import Agora.Lib.BreadthFirst
import Mathlib.Order.Filter.AtTopBot.Basic
import Mathlib.Order.Filter.Finite

namespace Agora.Impact

open Filter

/-!
# Exploration

One segment shows the window around a node.  An exploration starts from the nodes in the breadth-first
order of the windows that are cut off, and what it has seen in the end is the union of their windows
(`explored_of_ok`).  Where no cut-off window was without a new node, that is all there is
(`Explored.mem_edges`, `Explored.mem_nodes`).
-/

/-! ### Segments -/

section Segment

variable {κ : Type} {request : Option κ → Py (TraversalResult κ)}

/-- **Pages.**  With fuel for every page, reading ends and has added them all. -/
theorem loop_readPage {cursor : Option κ} {pages : List (TraversalResult κ)}
    (h : Pages request cursor pages) {s : Segment κ} (hs : s.cursor = cursor) (fuel : ℕ) :
    loop .outOfFuel (readPage request) fuel s
      = if pages.length ≤ fuel then .ok (pages.foldl Segment.add s) else .error .outOfFuel := by
  have hread {page : TraversalResult κ} {s : Segment κ} (hpage : request s.cursor = .ok page) :
      readPage request s
        = .ok (if page.nextCursor.isNone then .inr (s.add page) else .inl (s.add page)) := by
    rw [readPage, hpage]
    rfl
  induction h generalizing s fuel with
  | last hpage hnone =>
    have hstep := hread (hs ▸ hpage)
    rw [hnone] at hstep
    cases fuel with
    | zero => rfl
    | succ fuel => simp [loop_done hstep]
  | more hpage hnext _ ih =>
    have hstep := hread (hs ▸ hpage)
    rw [hnext] at hstep
    cases fuel with
    | zero => rfl
    | succ fuel => simp [loop_next hstep, ih (s := s.add _) hnext]

/-- A segment that shows the window around a node of a session. -/
structure Segment.Shows (s : Segment κ) (t : ReasoningTables) (w n : UUID) (d : ℕ) (start : UUID) :
    Prop where
  nodes : ∀ v, v ∈ s.nodes ↔ v ∈ t.sessionNodes w n ∧ v.id ∈ (t.sessionGraph w n).window d start
  edges : ∀ x, x ∈ s.edges ↔ x ∈ (t.sessionGraph w n).edgeWindow d start
  truncated : s.truncated = true ↔ (t.sessionGraph w n).Exceeds d start
  nodup : (s.nodes.map (·.id)).Nodup

theorem foldl_add (pages : List (TraversalResult κ)) (s : Segment κ) :
    (pages.foldl Segment.add s).nodes = keyedUpdate (·.id) s.nodes (pages.flatMap (·.nodes))
      ∧ (pages.foldl Segment.add s).edges = keyedUpdate (·.id) s.edges (pages.flatMap (·.edges))
      ∧ (pages.foldl Segment.add s).truncated = (s.truncated || pages.any (·.truncated)) := by
  induction pages generalizing s with
  | nil => simp [keyedUpdate]
  | cons page pages ih =>
    obtain ⟨hnodes, hedges, htruncated⟩ := ih (s.add page)
    rw [List.foldl_cons, hnodes, hedges, htruncated]
    simp [Segment.add, keyedUpdate, Bool.or_assoc]

/-- The pages of a window show it. -/
theorem shows_pages {t : ReasoningTables} {w n start : UUID} {d : ℕ}
    {pages : List (TraversalResult κ)}
    (h : IsWindow (t.sessionGraph w n) (t.sessionNodes w n) d start pages) :
    (pages.foldl Segment.add ⟨none, [], [], false⟩).Shows t w n d start := by
  obtain ⟨hnodes, hedges, htruncated⟩ := foldl_add pages ⟨none, [], [], false⟩
  refine ⟨fun v => ?_, fun x => ?_, ?_, ?_⟩
  · rw [hnodes, mem_keyedUpdate]
    · simpa using h.nodes v
    · intro a ha b hb hid
      have ha := (h.nodes a).mp (by simpa using ha)
      have hb := (h.nodes b).mp (by simpa using hb)
      exact t.node_eq_of_id_eq (t.mem_sessionNodes.mp ha.1).1 (t.mem_sessionNodes.mp hb.1).1 hid
  · rw [hedges, mem_keyedUpdate]
    · simpa using h.edges x
    · intro a ha b hb hid
      have ha := Multigraph.edge_of_mem_edgeWindow ((h.edges a).mp (by simpa using ha))
      have hb := Multigraph.edge_of_mem_edgeWindow ((h.edges b).mp (by simpa using hb))
      exact t.edge_eq_of_id_eq (t.mem_sessionEdges.mp ha).1 (t.mem_sessionEdges.mp hb).1 hid
  · rw [htruncated, ← h.truncated]
    simp
  · rw [hnodes]
    exact nodup_keyedUpdate (by simp) _

end Segment

/-! ### One root -/

section Explore

variable {κ : Type} {request : UUID → Option κ → Py (TraversalResult κ)} {fuel d : ℕ}
  {t : ReasoningTables} {w n : UUID} {root : GraphNode}

/-- A window that is cut off joins its nodes to the one it is around. -/
def Joined (G : Multigraph UUID GraphEdge) (d : ℕ) (u v : UUID) : Prop :=
  G.Exceeds d u ∧ v ∈ G.window d u

variable (t w n d root) in
/-- What has been seen are the windows of the nodes that have been started from.  The flag is raised
    at a window that is cut off and has no node that was not started from before. -/
structure Explored (e : Exploration) : Prop where
  queue : ∀ v ∈ e.queue, v ∈ t.sessionNodes w n
  expanded : ∀ id ∈ e.expanded, ∃ v ∈ t.sessionNodes w n, v.id = id
  worklist : Worklist (Joined (t.sessionGraph w n) d) root.id e.expanded (e.queue.map (·.id))
  nodes : ∀ v, v ∈ e.nodes
    ↔ v ∈ t.sessionNodes w n ∧ ∃ u ∈ e.expanded, v.id ∈ (t.sessionGraph w n).window d u
  edges : ∀ x, x ∈ e.edges ↔ ∃ u ∈ e.expanded, x ∈ (t.sessionGraph w n).edgeWindow d u
  nodup : (e.edges.map (·.id)).Nodup
  truncated : e.truncated = true ↔ ∃ before u later, e.expanded = before ++ u :: later
    ∧ (t.sessionGraph w n).Exceeds d u ∧ ∀ v ∈ (t.sessionGraph w n).window d u, v ∈ before ++ [u]

theorem explored_start (hroot : root ∈ t.sessionNodes w n) : Explored d t w n root (.start root) where
  queue := by simpa [Exploration.start] using hroot
  expanded := by simp [Exploration.start]
  worklist := worklist_start
  nodes := by simp [Exploration.start]
  edges := by simp [Exploration.start]
  nodup := by simp [Exploration.start]
  truncated := by simp [Exploration.start]

/-- No node is started from twice. -/
theorem Explored.nodup_expanded {e : Exploration} (h : Explored d t w n root e) :
    e.expanded.Nodup := by
  rcases h.worklist.order with hnil | horder
  · simp [hnil]
  · exact horder.nodup

variable {e : Exploration} {v : GraphNode} {queue : List GraphNode} {s : Segment κ}

theorem Explored.skip (h : Explored d t w n root e) (hqueue : e.queue = v :: queue)
    (hv : v.id ∈ e.expanded) : Explored d t w n root { e with queue } := by
  have hworklist := h.worklist
  rw [hqueue] at hworklist
  refine { h with
    queue := fun u hu => h.queue u ?_
    worklist := hworklist.skip hv }
  rw [hqueue]
  exact List.mem_cons_of_mem _ hu

/-- What a window that is cut off still has to start from. -/
theorem mem_continuation (hs : s.Shows t w n d v.id) {expanded : List UUID} {u : GraphNode} :
    u ∈ continuation s expanded ↔ u ∈ t.sessionNodes w n
      ∧ Joined (t.sessionGraph w n) d v.id u.id ∧ u.id ∉ expanded := by
  unfold continuation Joined
  rw [← hs.truncated]
  by_cases htruncated : s.truncated = true
  · rw [if_pos htruncated, List.mem_filter, hs.nodes]
    simp [htruncated, and_assoc]
  · simp [htruncated]

/-- A property of a place in a list that is one longer. -/
theorem exists_split_concat {α : Type} {l : List α} {a : α} {P : List α → α → Prop} :
    (∃ before u later, l ++ [a] = before ++ u :: later ∧ P before u)
      ↔ (∃ before u later, l = before ++ u :: later ∧ P before u) ∨ P l a := by
  constructor
  · rintro ⟨before, u, later, heq, h⟩
    cases later using List.reverseRecOn with
    | nil =>
      obtain ⟨rfl, hlast⟩ := List.append_inj' heq rfl
      obtain rfl := List.singleton_inj.mp hlast
      exact .inr h
    | append_singleton later x =>
      rw [← List.cons_append, ← List.append_assoc] at heq
      exact .inl ⟨before, u, later, (List.append_inj' heq rfl).1, h⟩
  · rintro (⟨before, u, later, rfl, h⟩ | h)
    · exact ⟨before, u, later ++ [a], by simp, h⟩
    · exact ⟨l, a, [], rfl, h⟩

/-- **Step.**  A node that was not started from adds its window. -/
theorem Explored.visit (h : Explored d t w n root e) (hqueue : e.queue = v :: queue)
    (hv : v.id ∉ e.expanded) (hs : s.Shows t w n d v.id) : Explored d t w n root
      { queue := queue ++ (continuation s (e.expanded ++ [v.id])).insertionSort fun a b => a.id ≤ b.id
        expanded := e.expanded ++ [v.id]
        nodes := keyedUpdate (·.id) e.nodes s.nodes
        edges := keyedUpdate (·.id) e.edges s.edges
        truncated := e.truncated || s.truncated && (continuation s (e.expanded ++ [v.id])).isEmpty } := by
  have hnode : v ∈ t.sessionNodes w n := h.queue v (by simp [hqueue])
  have hworklist := h.worklist
  rw [hqueue, List.map_cons] at hworklist
  have hreached {u : UUID} (hu : u ∈ (t.sessionGraph w n).window d v.id) :
      ∃ x ∈ t.sessionNodes w n, x.id = u :=
    t.exists_node_of_reachable hnode (Multigraph.reachable_of_mem_window hu)
  refine ⟨?_, ?_, ?_, fun x => ?_, fun x => ?_, nodup_keyedUpdate h.nodup _, ?_⟩
  · refine List.forall_mem_append.mpr ⟨fun u hu => h.queue u ?_, fun u hu => ?_⟩
    · rw [hqueue]
      exact List.mem_cons_of_mem _ hu
    · exact ((mem_continuation hs).mp ((List.mem_insertionSort _).mp hu)).1
  · refine List.forall_mem_append.mpr ⟨h.expanded, ?_⟩
    simpa using ⟨v, hnode, rfl⟩
  · rw [List.map_append]
    refine hworklist.visit hv ?_ ?_ ?_
    · have : Std.Total fun a b : GraphNode => a.id ≤ b.id := ⟨fun a b => le_total a.id b.id⟩
      have : IsTrans GraphNode fun a b => a.id ≤ b.id := ⟨fun a b c => le_trans⟩
      exact List.pairwise_map.mpr (List.pairwise_insertionSort _ _)
    · intro u hu
      obtain ⟨x, hx, rfl⟩ := List.mem_map.mp hu
      exact ((mem_continuation hs).mp ((List.mem_insertionSort _).mp hx)).2.1
    · intro u hu
      obtain ⟨x, hx, rfl⟩ := hreached hu.2
      by_cases hold : x.id ∈ e.expanded ++ [v.id]
      · exact .inr hold
      · refine .inl (List.mem_map_of_mem ((List.mem_insertionSort _).mpr ?_))
        exact (mem_continuation hs).mpr ⟨hx, hu, hold⟩
  · rw [mem_keyedUpdate, h.nodes, hs.nodes]
    · simp only [List.mem_append, List.mem_singleton, or_and_right, exists_or, exists_eq_left]
      exact and_or_left.symm
    · intro a ha b hb hid
      have hsession : ∀ c ∈ e.nodes ++ s.nodes, c ∈ t.sessionNodes w n := by
        refine List.forall_mem_append.mpr ⟨fun c hc => ((h.nodes c).mp hc).1, fun c hc => ?_⟩
        exact ((hs.nodes c).mp hc).1
      exact t.node_eq_of_id_eq (t.mem_sessionNodes.mp (hsession a ha)).1
        (t.mem_sessionNodes.mp (hsession b hb)).1 hid
  · rw [mem_keyedUpdate, h.edges, hs.edges]
    · simp only [List.mem_append, List.mem_singleton, or_and_right, exists_or, exists_eq_left]
    · intro a ha b hb hid
      have hsession : ∀ c ∈ e.edges ++ s.edges, c ∈ t.edges := by
        refine List.forall_mem_append.mpr ⟨fun c hc => ?_, fun c hc => ?_⟩
        · obtain ⟨u, -, hu⟩ := (h.edges c).mp hc
          exact (t.mem_sessionEdges.mp (Multigraph.edge_of_mem_edgeWindow hu)).1
        · exact (t.mem_sessionEdges.mp (Multigraph.edge_of_mem_edgeWindow ((hs.edges c).mp hc))).1
      exact t.edge_eq_of_id_eq (hsession a ha) (hsession b hb) hid
  · rw [Bool.or_eq_true, h.truncated, Bool.and_eq_true, hs.truncated, List.isEmpty_iff,
      exists_split_concat]
    refine or_congr Iff.rfl (and_congr_right fun hexceeds => ?_)
    rw [List.eq_nil_iff_forall_not_mem]
    constructor
    · intro hnone u hu
      obtain ⟨x, hx, rfl⟩ := hreached hu
      by_contra hnew
      exact hnone x ((mem_continuation hs).mpr ⟨hx, ⟨hexceeds, hu⟩, hnew⟩)
    · intro hall x hx
      obtain ⟨-, hjoined, hnew⟩ := (mem_continuation hs).mp hx
      exact hnew (hall x.id hjoined.2)

/-- What is left to start from and to look at. -/
def Exploration.size (nodes : List GraphNode) (e : Exploration) : ℕ :=
  (nodes.length + 1) * (nodes.length - e.expanded.length) + e.queue.length

/-- There are no more nodes to start from than there are nodes. -/
theorem Explored.length_expanded_le (h : Explored d t w n root e) :
    e.expanded.length ≤ (t.sessionNodes w n).length := by
  have hsub : e.expanded ⊆ (t.sessionNodes w n).map (·.id) := fun id hid => by
    obtain ⟨v, hv, rfl⟩ := h.expanded id hid
    exact List.mem_map_of_mem hv
  have hle := (List.subperm_of_subset h.nodup_expanded hsub).length_le
  rwa [List.length_map] at hle

/-- The graph store serves the windows of one session. -/
def ServesSession (request : UUID → Option κ → Py (TraversalResult κ)) (t : ReasoningTables)
    (w n : UUID) (d : ℕ) : Prop :=
  ∀ start ∈ t.sessionNodes w n, ∃ pages, Pages (request start.id) none pages
    ∧ IsWindow (t.sessionGraph w n) (t.sessionNodes w n) d start.id pages

theorem shows_of_readSegment (hserves : ServesSession request t w n d) (hv : v ∈ t.sessionNodes w n)
    (hs : readSegment request fuel v.id = .ok s) : s.Shows t w n d v.id := by
  obtain ⟨pages, hpages, hwindow⟩ := hserves v hv
  rw [readSegment, loop_readPage hpages rfl] at hs
  split at hs
  · obtain rfl := Except.ok.inj hs
    exact shows_pages hwindow
  · cases hs

theorem eventually_readSegment (hserves : ServesSession request t w n d) : ∀ᶠ fuel in atTop,
    ∀ v ∈ t.sessionNodes w n, ∃ s, readSegment request fuel v.id = .ok s := by
  refine (eventually_all_finite (t.sessionNodes w n).finite_toSet).mpr fun v hv => ?_
  obtain ⟨pages, hpages, -⟩ := hserves v hv
  filter_upwards [eventually_ge_atTop pages.length] with fuel hfuel
  rw [readSegment, loop_readPage hpages rfl, if_pos hfuel]
  exact ⟨_, rfl⟩

theorem preserves_expandNext (hserves : ServesSession request t w n d) :
    Preserves (expandNext request fuel) (Explored d t w n root)
      (Exploration.size (t.sessionNodes w n)) fun e => Explored d t w n root e ∧ e.queue = [] := by
  intro e r h hstep
  unfold expandNext at hstep
  cases hqueue : e.queue with
  | nil =>
    rw [hqueue] at hstep
    obtain rfl := Except.ok.inj hstep
    exact ⟨h, hqueue⟩
  | cons v queue =>
    rw [hqueue] at hstep
    by_cases hv : v.id ∈ e.expanded
    · obtain rfl := Except.ok.inj ((if_pos hv).symm.trans hstep)
      refine ⟨h.skip hqueue hv, ?_⟩
      simp [Exploration.size, hqueue]
    · obtain ⟨s, hs, hstep⟩ := Except.bind_eq_ok.mp ((if_neg hv).symm.trans hstep)
      obtain rfl := Except.ok.inj hstep
      have hshows := shows_of_readSegment hserves (h.queue v (by simp [hqueue])) hs
      have hvisit := h.visit hqueue hv hshows
      refine ⟨hvisit, ?_⟩
      have hexpanded := hvisit.length_expanded_le
      have hfurther : (continuation s (e.expanded ++ [v.id])).length ≤ (t.sessionNodes w n).length := by
        refine (List.subperm_of_subset ?_ fun u hu => ((mem_continuation hshows).mp hu).1).length_le
        unfold continuation
        split
        · exact hshows.nodup.of_map.filter _
        · exact List.nodup_nil
      have hqueued : e.queue.length = queue.length + 1 := by rw [hqueue, List.length_cons]
      -- One node less to start from is worth more than a whole window in the queue.
      obtain ⟨left, hleft⟩ := Nat.exists_eq_add_of_le hexpanded
      simp only [Exploration.size, List.length_append, List.length_singleton,
        List.length_insertionSort] at hleft ⊢
      rw [show (t.sessionNodes w n).length - (e.expanded.length + 1) = left by omega,
        show (t.sessionNodes w n).length - e.expanded.length = left + 1 by omega, Nat.mul_succ]
      omega

/-- **Results.**  What an exploration has seen in the end. -/
theorem explored_of_ok (hserves : ServesSession request t w n d) (hroot : root ∈ t.sessionNodes w n)
    (h : explore request fuel root = .ok e) : Explored d t w n root e ∧ e.queue = [] :=
  loop_ok (preserves_expandNext hserves) (explored_start hroot) h

/-- **Termination.**  With enough fuel it comes to its end. -/
theorem eventually_explore (hserves : ServesSession request t w n d)
    (hroot : root ∈ t.sessionNodes w n) :
    ∀ᶠ fuel in atTop, ∃ e, explore request fuel root = .ok e := by
  filter_upwards [eventually_readSegment hserves,
    eventually_gt_atTop ((Exploration.start root).size (t.sessionNodes w n))] with fuel hread hfuel
  have hdefined (e : Exploration) (h : Explored d t w n root e) :
      ∃ r, expandNext request fuel e = .ok r := by
    unfold expandNext
    split
    · exact ⟨_, rfl⟩
    · rename_i v queue hqueue
      obtain ⟨s, hs⟩ := hread v (h.queue v (by simp [hqueue]))
      split_ifs with hv
      · exact ⟨_, rfl⟩
      · rw [hs]
        exact ⟨_, rfl⟩
  obtain ⟨e, he, -⟩ := exists_loop (preserves_expandNext hserves) hdefined (explored_start hroot) hfuel
  exact ⟨e, he⟩

/-! ### What has been recorded -/

/-- In breadth-first order, every node with a window that is cut off is followed by one of it. -/
def Unblocked (G : Multigraph UUID GraphEdge) (d : ℕ) (root : UUID) : Prop :=
  ∀ order, IsSearchOrder (Joined G d) root order → ∀ before u later, order = before ++ u :: later →
    G.Exceeds d u → ∃ v ∈ later, v ∈ G.window d u

/-- Without a window that is cut off nothing is blocked. -/
theorem unblocked_of_length_le {G : Multigraph UUID GraphEdge} {edges : List GraphEdge}
    (hedges : ∀ x ∈ G.edges, x ∈ edges) (hfew : edges.length ≤ d) (root : UUID) :
    Unblocked G d root := by
  rintro order - before u later - ⟨es, hes, hlength⟩
  have hsub : es ⊆ edges := fun x hx => by
    obtain ⟨fs, gs, rfl⟩ := List.append_of_mem hx
    exact hedges x (Multigraph.isWalk_append.mp hes.1).2.1
  have hle := (List.subperm_of_subset hes.nodup hsub).length_le
  omega

theorem Explored.isSearchOrder (h : Explored d t w n root e) (hqueue : e.queue = []) :
    IsSearchOrder (Joined (t.sessionGraph w n) d) root.id e.expanded := by
  have hworklist := h.worklist
  rw [hqueue] at hworklist
  exact hworklist.isSearchOrder

/-- **Flag.**  The flag is down exactly where the order is not blocked. -/
theorem Explored.truncated_iff (h : Explored d t w n root e) (hqueue : e.queue = []) :
    e.truncated = true ↔ ¬ Unblocked (t.sessionGraph w n) d root.id := by
  have horder := h.isSearchOrder hqueue
  rw [h.truncated]
  constructor
  · rintro ⟨before, u, later, heq, hexceeds, hall⟩ hunblocked
    obtain ⟨v, hv, hwindow⟩ := hunblocked e.expanded horder before u later heq hexceeds
    have hnodup := h.nodup_expanded
    rw [heq, List.append_cons] at hnodup
    exact List.disjoint_of_nodup_append hnodup (hall v hwindow) hv
  · intro hblocked
    by_contra hnone
    refine hblocked fun order horder' before u later heq hexceeds => ?_
    obtain rfl := horder'.unique horder
    by_contra hlater
    refine hnone ⟨before, u, later, heq, hexceeds, fun v hv => ?_⟩
    have hmem : v ∈ e.expanded := horder.closed u (by simp [heq]) v ⟨hexceeds, hv⟩
    rw [heq, List.append_cons] at hmem
    exact (List.mem_append.mp hmem).resolve_right fun hv' => hlater ⟨v, hv', hv⟩

/-- The recorded edges are a part of the graph. -/
theorem Explored.edges_subset (h : Explored d t w n root e) :
    {x | x ∈ e.edges} ⊆ (t.sessionGraph w n).edges := fun x hx => by
  obtain ⟨u, -, hu⟩ := (h.edges x).mp hx
  exact Multigraph.edge_of_mem_edgeWindow hu

/-- Whatever has been seen can be reached along the recorded edges. -/
theorem Explored.reachable (h : Explored d t w n root e) (hqueue : e.queue = []) (hv : v ∈ e.nodes) :
    (forwardGraph e.edges).Reachable root.id v.id := by
  have hwindow {u v : UUID} (hu : u ∈ e.expanded) (hv : v ∈ (t.sessionGraph w n).window d u) :
      (forwardGraph e.edges).Reachable u v := by
    obtain ⟨es, hes, hlength, hend⟩ := Multigraph.mem_window_iff.mp hv
    refine ⟨es, (Multigraph.isWalk_restrict h.edges_subset).mpr ⟨hes.1, fun x hx => ?_⟩, ?_⟩
    · exact (h.edges x).mpr ⟨u, hu, es, hes, hlength, hx⟩
    · exact Multigraph.walkEnd_restrict.trans hend
  have hexpanded := (h.isSearchOrder hqueue).steps.forall_mem
    (P := fun u => (forwardGraph e.edges).Reachable root.id u) .refl
    fun u hu w hw hreach => hreach.append (hwindow hu hw.2)
  obtain ⟨-, u, hu, hv⟩ := (h.nodes v).mp hv
  exact (hexpanded u hu).append (hwindow hu hv)

theorem Explored.root_mem (h : Explored d t w n root e) (hqueue : e.queue = []) :
    root.id ∈ e.expanded := by
  obtain ⟨rest, hrest⟩ := (h.isSearchOrder hqueue).steps.exists_cons
  simp [hrest]

theorem Explored.closed (h : Explored d t w n root e) (hqueue : e.queue = []) :
    ∀ u ∈ {x | x ∈ e.expanded}, (t.sessionGraph w n).Exceeds d u →
      (t.sessionGraph w n).window d u ⊆ {x | x ∈ e.expanded} :=
  fun u hu hexceeds v hv => (h.isSearchOrder hqueue).closed u hu v ⟨hexceeds, hv⟩

section Unblocked

variable (h : Explored d t w n root e) (hqueue : e.queue = [])
  (hunblocked : Unblocked (t.sessionGraph w n) d root.id)
include h hqueue hunblocked

/-- The first window is not empty where it is cut off. -/
theorem Explored.positive : 0 < d ∨ ¬ (t.sessionGraph w n).Exceeds d root.id := by
  by_contra hnone
  rw [not_or, not_not] at hnone
  obtain ⟨hzero, hexceeds⟩ := hnone
  have horder := h.isSearchOrder hqueue
  obtain ⟨rest, hrest⟩ := horder.steps.exists_cons
  obtain ⟨v, hv, hwindow⟩ := hunblocked e.expanded horder [] root.id rest hrest hexceeds
  obtain ⟨es, -, hlength, hend⟩ := Multigraph.mem_window_iff.mp hwindow
  obtain rfl : es = [] := List.length_eq_zero_iff.mp (by omega)
  have hnodup := h.nodup_expanded
  rw [hrest, List.nodup_cons] at hnodup
  obtain rfl : root.id = v := hend
  exact hnodup.1 hv

/-- **Edges.**  The edges of all simple walks from the root have been recorded. -/
theorem Explored.mem_edges {es : List GraphEdge} (hes : (t.sessionGraph w n).IsSimple root.id es)
    {x : GraphEdge} (hx : x ∈ es) : x ∈ e.edges := by
  obtain ⟨u, hu, hwindow⟩ := Multigraph.mem_edgeWindow_of_simple
    (X := {x | x ∈ e.expanded}) (h.root_mem hqueue) (h.closed hqueue)
    (h.positive hqueue hunblocked) hes hx
  exact (h.edges x).mpr ⟨u, hu, hwindow⟩

/-- **Nodes.**  Everything that can be reached has been seen. -/
theorem Explored.mem_nodes : v ∈ e.nodes
    ↔ v ∈ t.sessionNodes w n ∧ (t.sessionGraph w n).Reachable root.id v.id := by
  constructor
  · intro hv
    obtain ⟨es, hes, hend⟩ := h.reachable hqueue hv
    refine ⟨((h.nodes v).mp hv).1, es, ?_, ?_⟩
    · exact ((Multigraph.isWalk_restrict h.edges_subset).mp hes).1
    · exact Multigraph.walkEnd_restrict.symm.trans hend
  · rintro ⟨hv, hreach⟩
    obtain ⟨u, hu, hwindow⟩ := Multigraph.mem_window_of_reachable
      (X := {x | x ∈ e.expanded}) (h.root_mem hqueue) (h.closed hqueue)
      (h.positive hqueue hunblocked) hreach
    exact (h.nodes v).mpr ⟨hv, u, hu, hwindow⟩

end Unblocked

end Explore

end Agora.Impact
