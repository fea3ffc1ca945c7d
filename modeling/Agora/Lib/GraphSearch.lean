import Agora.Lib.Except
import Agora.Lib.Graph
import Mathlib.Data.Finset.Card
import Mathlib.Tactic.Ring

namespace Agora

/-!
# Searches over a list of edges

Breadth-first search for the distance of a vertex (`shortestDepth_eq`), and depth-first search with
an explicit stack for the number of simple walks to it (`pathCount_eq`).  Both end: the first visits
no vertex twice, the second none that is on its way.
-/

/-! ### Loops

A `while` loop is a step function that goes on with a new state or ends with a result, run for so
many steps at most.  An invariant gives what holds of the result, and a measure that decreases gives
the result (`loop_ok`, `exists_loop`). -/

section Loop

variable {σ ω ε : Type} (stop : ε) (step : σ → Except ε (σ ⊕ ω))

/-- Run the step until it ends, and give up after so many steps. -/
def loop : ℕ → σ → Except ε ω
  | 0, _ => .error stop
  | fuel + 1, s => do
    match ← step s with
    | .inl s' => loop fuel s'
    | .inr w => pure w

variable {stop step}

theorem loop_next {fuel : ℕ} {s s' : σ} (h : step s = .ok (.inl s')) :
    loop stop step (fuel + 1) s = loop stop step fuel s' := by
  rw [loop, h]
  rfl

theorem loop_done {fuel : ℕ} {s : σ} {w : ω} (h : step s = .ok (.inr w)) :
    loop stop step (fuel + 1) s = .ok w := by
  rw [loop, h]
  rfl

/-- From a state with the invariant a step leads to a smaller one, or to a right result. -/
def Preserves (step : σ → Except ε (σ ⊕ ω)) (Inv : σ → Prop) (size : σ → ℕ) (Post : ω → Prop) : Prop :=
  ∀ s r, Inv s → step s = .ok r → Sum.elim (fun s' => Inv s' ∧ size s' < size s) Post r

variable {Inv : σ → Prop} {size : σ → ℕ} {Post : ω → Prop}

/-- **Results.**  Every result of the loop is right. -/
theorem loop_ok (h : Preserves step Inv size Post) {fuel : ℕ} {s : σ} (hs : Inv s) {w : ω}
    (hw : loop stop step fuel s = .ok w) : Post w := by
  induction fuel generalizing s with
  | zero => cases hw
  | succ fuel ih =>
    obtain ⟨r, hstep, hw⟩ := Except.bind_eq_ok.mp hw
    have hr := h s r hs hstep
    cases r with
    | inl s' => exact ih hr.1 hw
    | inr w' => exact Except.ok.inj hw ▸ hr

/-- **Termination.**  Where no step raises, there is a result after as many steps as the state is
    large. -/
theorem exists_loop (h : Preserves step Inv size Post) (hdefined : ∀ s, Inv s → ∃ r, step s = .ok r)
    {fuel : ℕ} {s : σ} (hs : Inv s) (hfuel : size s < fuel) :
    ∃ w, loop stop step fuel s = .ok w ∧ Post w := by
  induction fuel generalizing s with
  | zero => omega
  | succ fuel ih =>
    obtain ⟨r, hstep⟩ := hdefined s hs
    have hr := h s r hs hstep
    cases r with
    | inl s' =>
      rw [loop_next hstep]
      exact ih hr.1 (by have := hr.2; omega)
    | inr w => exact ⟨w, loop_done hstep, hr⟩

end Loop

section Search

variable {α ε : Type} [DecidableEq α] (source target : ε → α) (edges : List ε)

/-- The graph of the edges in a list. -/
def listGraph : Multigraph α ε := ⟨source, target, {e | e ∈ edges}⟩

/-- `adjacency[v]`. -/
def successors (v : α) : List α := (edges.filter (source · = v)).map target

/-- The vertices that an edge leads to and that are not in a list. -/
def unvisited (visited : List α) : Finset α := (edges.map target).toFinset \ visited.toFinset

variable {source target edges}

theorem mem_successors {v w : α} :
    w ∈ successors source target edges v ↔ ∃ e ∈ edges, source e = v ∧ target e = w := by
  simp [successors, and_assoc]

theorem card_unvisited_le (visited : List α) : (unvisited target edges visited).card ≤ edges.length :=
  (Finset.card_le_card Finset.sdiff_subset).trans
    ((List.toFinset_card_le _).trans_eq (List.length_map _))

/-- Each newly visited vertex is one less to visit. -/
theorem card_unvisited_append {visited new : List α} (hnodup : new.Nodup)
    (hnew : ∀ w ∈ new, w ∈ unvisited target edges visited) :
    (unvisited target edges (visited ++ new)).card + new.length
      = (unvisited target edges visited).card := by
  have hsub : new.toFinset ⊆ unvisited target edges visited := fun w hw =>
    hnew w (List.mem_toFinset.mp hw)
  have hsplit : unvisited target edges (visited ++ new)
      = unvisited target edges visited \ new.toFinset := by
    ext w
    simp [unvisited, and_assoc]
  rw [hsplit, ← List.toFinset_card_of_nodup hnodup]
  exact Finset.card_sdiff_add_card_eq_card hsub

theorem successor_mem_unvisited {v w : α} {visited : List α}
    (hw : w ∈ successors source target edges v) (hfresh : w ∉ visited) :
    w ∈ unvisited target edges visited := by
  obtain ⟨e, he, -, rfl⟩ := mem_successors.mp hw
  simpa [unvisited] using ⟨⟨e, he, rfl⟩, hfresh⟩

/-! ### Distance -/

/-- The vertices still to look at with their distance, and all that have been queued. -/
structure DepthSearch (α : Type) where
  queue : List (α × ℕ)
  visited : List α

/-- Queue a vertex unless it has been. -/
def DepthSearch.visit (depth : ℕ) (s : DepthSearch α) (child : α) : DepthSearch α :=
  if child ∈ s.visited then s
  else ⟨s.queue ++ [(child, depth + 1)], s.visited ++ [child]⟩

variable (source target edges) in
/-- Look at the first vertex of the queue.  The search returns as soon as it meets the goal, and
    what it has queued by then does not matter. -/
def depthStep {η : Type} (goal : α) (fallback : ℕ) (s : DepthSearch α) :
    Except η (DepthSearch α ⊕ ℕ) :=
  match s.queue with
  | [] => .ok (.inr fallback)
  | (v, depth) :: queue =>
    if goal ∈ successors source target edges v then .ok (.inr (depth + 1))
    else .ok (.inl ((successors source target edges v).foldl (DepthSearch.visit depth) { s with queue }))

variable (source target edges) in
def shortestDepth {η : Type} (stop : η) (root goal : α) (fallback : ℕ) : Except η ℕ :=
  loop stop (depthStep source target edges goal fallback) (edges.length + 2) ⟨[(root, 0)], [root]⟩

/-- Visiting queues the children that are new, once each. -/
theorem exists_foldl_visit (depth : ℕ) (children : List α) (s : DepthSearch α) :
    ∃ new : List α, new.Nodup ∧ (∀ w, w ∈ new ↔ w ∈ children ∧ w ∉ s.visited)
      ∧ children.foldl (DepthSearch.visit depth) s
        = ⟨s.queue ++ new.map (·, depth + 1), s.visited ++ new⟩ := by
  induction children generalizing s with
  | nil => exact ⟨[], List.nodup_nil, by simp, by simp⟩
  | cons child children ih =>
    rw [List.foldl_cons, DepthSearch.visit]
    by_cases hchild : child ∈ s.visited
    · rw [if_pos hchild]
      obtain ⟨new, hnodup, hmem, hfold⟩ := ih s
      refine ⟨new, hnodup, fun w => ?_, hfold⟩
      rw [hmem, List.mem_cons]
      constructor
      · exact fun h => ⟨.inr h.1, h.2⟩
      · rintro ⟨rfl | hw, hfresh⟩
        · exact absurd hchild hfresh
        · exact ⟨hw, hfresh⟩
    · rw [if_neg hchild]
      obtain ⟨new, hnodup, hmem, hfold⟩ := ih ⟨s.queue ++ [(child, depth + 1)], s.visited ++ [child]⟩
      have hother : child ∉ new := fun h => ((hmem child).mp h).2 (by simp)
      refine ⟨child :: new, List.nodup_cons.mpr ⟨hother, hnodup⟩, fun w => ?_, ?_⟩
      · rw [List.mem_cons, hmem, List.mem_cons]
        by_cases hw : w = child <;> simp [hw, hchild]
      · rw [hfold]
        simp

/-- The queue holds the vertices of two distances in order; nearer ones are done with. -/
structure Frontier (source target : ε → α) (edges : List ε) (root goal : α) (k : ℕ)
    (s : DepthSearch α) : Prop where
  sorted : (s.queue.map (·.2)).Pairwise (· ≤ ·)
  bounded : ∀ p ∈ s.queue, k ≤ p.2 ∧ p.2 ≤ k + 1
  exact : ∀ p ∈ s.queue, (listGraph source target edges).IsDistance root p.1 p.2
  near : ∀ w j, (listGraph source target edges).IsDistance root w j → j ≤ k → w ∈ s.visited
  closed : ∀ v ∈ s.visited, (∀ p ∈ s.queue, p.1 ≠ v) →
    ∀ w ∈ successors source target edges v, w ∈ s.visited
  searching : goal ∉ s.visited

/-- The frontier can be taken at the distance of the first vertex of the queue. -/
theorem Frontier.advance {root goal : α} {k : ℕ} {s : DepthSearch α} {v : α} {depth : ℕ}
    {queue : List (α × ℕ)} (h : Frontier source target edges root goal k s)
    (hqueue : s.queue = (v, depth) :: queue) : Frontier source target edges root goal depth s := by
  obtain ⟨hle, hge⟩ := h.bounded (v, depth) (by simp [hqueue])
  have hfirst : ∀ p ∈ s.queue, depth ≤ p.2 := by
    have hsorted := h.sorted
    rw [hqueue, List.map_cons, List.pairwise_cons] at hsorted
    rw [hqueue]
    exact List.forall_mem_cons.mpr ⟨le_rfl, fun p hp => hsorted.1 p.2 (List.mem_map_of_mem hp)⟩
  refine ⟨h.sorted, fun p hp => ⟨hfirst p hp, ?_⟩, h.exact, fun w j hj hjd => ?_, h.closed, h.searching⟩
  · have := (h.bounded p hp).2
    omega
  by_cases hnear : j ≤ k
  · exact h.near w j hj hnear
  -- The vertex is one step from a nearer one, and that is no longer in the queue.
  obtain rfl : j = k + 1 := by omega
  obtain ⟨e, he, rfl, hsource⟩ := hj.exists_edge
  refine h.closed (source e) (h.near _ k hsource le_rfl) (fun p hp hsame => ?_) _
    (mem_successors.mpr ⟨e, he, rfl, rfl⟩)
  have hexact := h.exact p hp
  rw [hsame] at hexact
  have := hexact.unique hsource
  have := hfirst p hp
  omega

theorem frontier_start {root goal : α} (hne : root ≠ goal) :
    Frontier source target edges root goal 0 ⟨[(root, 0)], [root]⟩ where
  sorted := by simp
  bounded := by simp
  exact := by simpa using Multigraph.isDistance_self
  near w j hj hle := by
    obtain rfl : j = 0 := Nat.le_zero.mp hle
    obtain ⟨es, -, hend, hlength⟩ := hj.1
    rw [List.length_eq_zero_iff.mp hlength] at hend
    exact List.mem_singleton.mpr hend.symm
  closed v hv hqueue := absurd (List.mem_singleton.mp hv).symm (hqueue (root, 0) (by simp))
  searching := by simpa using hne.symm

/-- **Step.**  A search that does not find the goal goes on with a frontier. -/
theorem Frontier.step {root goal : α} {s : DepthSearch α} {v : α} {depth : ℕ}
    {queue : List (α × ℕ)} {new : List α} (h : Frontier source target edges root goal depth s)
    (hqueue : s.queue = (v, depth) :: queue) (hgoal : goal ∉ successors source target edges v)
    (hnew : ∀ w, w ∈ new ↔ w ∈ successors source target edges v ∧ w ∉ s.visited) :
    Frontier source target edges root goal depth
      ⟨queue ++ new.map (·, depth + 1), s.visited ++ new⟩ := by
  have hrest : ∀ p ∈ queue, p ∈ s.queue := fun p hp => by rw [hqueue]; exact List.mem_cons_of_mem _ hp
  have hv : (listGraph source target edges).IsDistance root v depth :=
    h.exact (v, depth) (by simp [hqueue])
  have hdistance : ∀ w ∈ new, (listGraph source target edges).IsDistance root w (depth + 1) := by
    intro w hw
    obtain ⟨hsuccessor, hfresh⟩ := (hnew w).mp hw
    obtain ⟨e, he, rfl, rfl⟩ := mem_successors.mp hsuccessor
    have hreach : (listGraph source target edges).Reachable root (target e) :=
      hv.reachable.append ⟨[e], ⟨he, rfl, trivial⟩, rfl⟩
    obtain ⟨j, hj⟩ := Multigraph.exists_isDistance hreach
    have hle : j ≤ depth + 1 := hv.le_succ he hj
    have hfar : ¬ j ≤ depth := fun hnear => hfresh (h.near _ j hj hnear)
    obtain rfl : j = depth + 1 := by omega
    exact hj
  have hsorted := h.sorted
  rw [hqueue, List.map_cons, List.pairwise_cons] at hsorted
  refine ⟨?_, ?_, ?_, fun w j hj hle => ?_, fun w hw hout x hx => ?_, ?_⟩
  · rw [List.map_append]
    refine List.pairwise_append.mpr ⟨hsorted.2, ?_, ?_⟩
    · refine List.pairwise_map.mpr (List.pairwise_map.mpr (List.pairwise_of_forall ?_))
      exact fun _ _ => le_rfl
    · intro i hi j hj
      obtain ⟨p, hp, rfl⟩ := List.mem_map.mp hi
      have := (h.bounded p (hrest p hp)).2
      simp only [List.map_map, List.mem_map, Function.comp_apply] at hj
      obtain ⟨-, -, rfl⟩ := hj
      exact this
  · refine List.forall_mem_append.mpr ⟨fun p hp => h.bounded p (hrest p hp), ?_⟩
    simp
  · refine List.forall_mem_append.mpr ⟨fun p hp => h.exact p (hrest p hp), ?_⟩
    simpa using hdistance
  · exact List.mem_append_left _ (h.near w j hj hle)
  · by_cases hwv : w = v
    · subst hwv
      by_cases hvisited : x ∈ s.visited
      · exact List.mem_append_left _ hvisited
      · exact List.mem_append_right _ ((hnew x).mpr ⟨hx, hvisited⟩)
    · rcases List.mem_append.mp hw with hw | hw
      · refine List.mem_append_left _ (h.closed w hw (fun p hp hsame => ?_) x hx)
        rw [hqueue] at hp
        rcases List.mem_cons.mp hp with rfl | hp
        · exact hwv hsame.symm
        · exact hout p (List.mem_append_left _ hp) hsame
      · exact absurd rfl (hout (w, depth + 1) (List.mem_append_right _ (List.mem_map_of_mem hw)))
  · rw [List.mem_append, not_or]
    exact ⟨h.searching, fun hmem => hgoal ((hnew goal).mp hmem).1⟩

/-- With an empty queue everything that can be reached has been visited. -/
theorem Frontier.visited_of_reachable {root goal : α} {k : ℕ} {s : DepthSearch α}
    (h : Frontier source target edges root goal k s) (hqueue : s.queue = []) {w : α} {j : ℕ}
    (hw : (listGraph source target edges).IsDistance root w j) : w ∈ s.visited := by
  induction j generalizing w with
  | zero => exact h.near w 0 hw (Nat.zero_le k)
  | succ j ih =>
    obtain ⟨e, he, rfl, hsource⟩ := hw.exists_edge
    refine h.closed (source e) (ih hsource) (by simp [hqueue]) _ ?_
    exact mem_successors.mpr ⟨e, he, rfl, rfl⟩

theorem preserves_depthStep {η : Type} {root goal : α} (fallback : ℕ)
    (hreach : (listGraph source target edges).Reachable root goal) :
    Preserves (depthStep (η := η) source target edges goal fallback)
      (fun s => ∃ k, Frontier source target edges root goal k s)
      (fun s => (unvisited target edges s.visited).card + s.queue.length)
      fun k => (listGraph source target edges).IsDistance root goal k := by
  rintro s r ⟨k, h⟩ hstep
  obtain ⟨j, hj⟩ := Multigraph.exists_isDistance hreach
  unfold depthStep at hstep
  cases hqueue : s.queue with
  | nil => exact absurd (h.visited_of_reachable hqueue hj) h.searching
  | cons p queue =>
    obtain ⟨v, depth⟩ := p
    have h := h.advance hqueue
    have hv := h.exact (v, depth) (by simp [hqueue])
    rw [hqueue] at hstep
    by_cases hgoal : goal ∈ successors source target edges v
    · obtain rfl : .inr (depth + 1) = r := Except.ok.inj ((if_pos hgoal).symm.trans hstep)
      show (listGraph source target edges).IsDistance root goal (depth + 1)
      obtain ⟨e, he, rfl, rfl⟩ := mem_successors.mp hgoal
      have hle : j ≤ depth + 1 := hv.le_succ he hj
      have hfar : ¬ j ≤ depth := fun hnear => h.searching (h.near _ j hj hnear)
      obtain rfl : j = depth + 1 := by omega
      exact hj
    · obtain ⟨new, hnodup, hnew, hfold⟩ :=
        exists_foldl_visit depth (successors source target edges v) { s with queue }
      obtain rfl := Except.ok.inj ((if_neg hgoal).symm.trans hstep)
      rw [hfold]
      refine ⟨⟨depth, h.step hqueue hgoal hnew⟩, ?_⟩
      · have hcard := card_unvisited_append hnodup fun w hw =>
          successor_mem_unvisited ((hnew w).mp hw).1 ((hnew w).mp hw).2
        have hlength : s.queue.length = queue.length + 1 := by rw [hqueue, List.length_cons]
        simp only [List.length_append, List.length_map] at hcard ⊢
        omega

/-- **Distance.**  The search finds the distance of every vertex that can be reached. -/
theorem exists_shortestDepth {η : Type} (stop : η) {root goal : α} (fallback : ℕ) (hne : root ≠ goal)
    (hreach : (listGraph source target edges).Reachable root goal) :
    ∃ k, shortestDepth source target edges stop root goal fallback = .ok k
      ∧ (listGraph source target edges).IsDistance root goal k := by
  have hdefined (s : DepthSearch α) :
      ∃ r, depthStep (η := η) source target edges goal fallback s = .ok r := by
    unfold depthStep
    split
    · exact ⟨_, rfl⟩
    · split_ifs <;> exact ⟨_, rfl⟩
  refine exists_loop (preserves_depthStep fallback hreach) (fun s _ => hdefined s)
    ⟨0, frontier_start hne⟩ ?_
  have : (unvisited target edges [root]).card ≤ edges.length := card_unvisited_le [root]
  simp only [List.length_singleton]
  omega

/-! ### Number of simple walks -/

/-- The ends of the walks still to follow, with the vertices behind each, and how many walks have met
    the goal. -/
structure PathSearch (α : Type) where
  stack : List (α × List α)
  count : ℕ

/-- Count a walk that meets the goal, and follow one that meets a vertex for the first time. -/
def PathSearch.follow (goal : α) (visited : List α) (s : PathSearch α) (child : α) : PathSearch α :=
  if child = goal then { s with count := s.count + 1 }
  else if child ∈ visited then s
  else { s with stack := (child, child :: visited) :: s.stack }

variable (source target edges) in
def pathStep {η : Type} (goal : α) (s : PathSearch α) : Except η (PathSearch α ⊕ ℕ) :=
  match s.stack with
  | [] => .ok (.inr (max 1 s.count))
  | (v, visited) :: stack =>
    .ok (.inl ((successors source target edges v).foldl (PathSearch.follow goal visited)
      { s with stack }))

variable (source target edges) in
def pathCount {η : Type} (stop : η) (root goal : α) : Except η ℕ :=
  loop stop (pathStep source target edges goal) ((edges.length + 1) ^ edges.length + 1)
    ⟨[(root, [root])], 0⟩

variable (source target edges) in
/-- The ways to go on from a vertex to the goal and not meet a vertex twice. -/
def completions (goal v : α) (visited : List α) : Set (List ε) :=
  {es | es ≠ [] ∧ (listGraph source target edges).IsWalk v es
    ∧ (listGraph source target edges).walkEnd v es = goal ∧ (es.map target).Nodup
    ∧ ∀ w ∈ es.map target, w ∉ visited}

variable (source target edges) in
/-- How many of them begin with a step to `child`. -/
noncomputable def completionsVia (goal : α) (visited : List α) (child : α) : ℕ∞ :=
  if child = goal then 1
  else if child ∈ visited then 0
  else (completions source target edges goal child (child :: visited)).encard

omit [DecidableEq α] in
theorem completions_eq_simpleWalks {root goal : α} (hne : root ≠ goal) :
    completions source target edges goal root [root]
      = (listGraph source target edges).simpleWalks root goal := by
  ext es
  show (_ ∧ _ ∧ _ ∧ _ ∧ _) ↔ (_ ∧ (root :: es.map target).Nodup) ∧ _
  simp only [List.nodup_cons, List.mem_singleton]
  constructor
  · rintro ⟨-, hwalk, hend, hnodup, hfresh⟩
    exact ⟨⟨hwalk, fun hmem => hfresh root hmem rfl, hnodup⟩, hend⟩
  · rintro ⟨⟨hwalk, hroot, hnodup⟩, hend⟩
    refine ⟨?_, hwalk, hend, hnodup, fun w hw hsame => hroot (hsame ▸ hw)⟩
    rintro rfl
    exact hne hend

/-- The completions that begin with an edge, by where it leads. -/
theorem encard_completions_cons {goal v : α} {visited : List α} (hgoal : goal ∉ visited) {e : ε}
    (he : e ∈ edges) (hsource : source e = v) :
    {es ∈ completions source target edges goal v visited | ∃ fs, es = e :: fs}.encard
      = completionsVia source target edges goal visited (target e) := by
  unfold completionsVia
  by_cases hmeets : target e = goal
  · rw [if_pos hmeets]
    have hone : {es ∈ completions source target edges goal v visited | ∃ fs, es = e :: fs}
        = {[e]} := by
      ext es
      constructor
      · rintro ⟨⟨-, -, hend, hnodup, -⟩, fs, rfl⟩
        -- A longer walk would meet the goal again.
        have hmem : (listGraph source target edges).walkEnd (target e) fs
            ∈ (listGraph source target edges).vertices (target e) fs :=
          Multigraph.walkEnd_mem_vertices
        rw [show (listGraph source target edges).walkEnd (target e) fs = target e from
          hend.trans hmeets.symm] at hmem
        cases fs using List.reverseRecOn with
        | nil => rfl
        | append_singleton fs f =>
          rw [Multigraph.walkEnd_cons, Multigraph.walkEnd_append] at hend
          have hlast : target f = target e := hend.trans hmeets.symm
          rw [List.map_cons, List.nodup_cons] at hnodup
          exact absurd (by simp [hlast]) hnodup.1
      · rintro rfl
        refine ⟨⟨List.cons_ne_nil _ _, ⟨he, hsource, trivial⟩, hmeets, by simp, ?_⟩, [], rfl⟩
        simpa [hmeets] using hgoal
    rw [hone, Set.encard_singleton]
  rw [if_neg hmeets]
  by_cases hvisited : target e ∈ visited
  · rw [if_pos hvisited, Set.encard_eq_zero]
    ext es
    refine ⟨?_, fun h => h.elim⟩
    rintro ⟨⟨-, -, -, -, hfresh⟩, fs, rfl⟩
    exact hfresh (target e) (by simp) hvisited
  · rw [if_neg hvisited, ← (List.cons_injective (a := e)).encard_image
      (completions source target edges goal (target e) (target e :: visited))]
    congr 1
    ext es
    constructor
    · rintro ⟨⟨-, hwalk, hend, hnodup, hfresh⟩, fs, rfl⟩
      rw [List.map_cons, List.nodup_cons] at hnodup
      rw [List.map_cons, List.forall_mem_cons] at hfresh
      refine ⟨fs, ⟨?_, hwalk.2.2, hend, hnodup.2, fun w hw => ?_⟩, rfl⟩
      · rintro rfl
        exact hmeets hend
      · rw [List.mem_cons, not_or]
        exact ⟨fun hsame => hnodup.1 (hsame ▸ hw), hfresh.2 w hw⟩
    · rintro ⟨fs, ⟨-, hwalk, hend, hnodup, hfresh⟩, rfl⟩
      refine ⟨⟨List.cons_ne_nil _ _, ⟨he, hsource, hwalk⟩, hend, ?_, ?_⟩, fs, rfl⟩
      · rw [List.map_cons, List.nodup_cons]
        exact ⟨fun hmem => hfresh _ hmem List.mem_cons_self, hnodup⟩
      · rw [List.map_cons, List.forall_mem_cons]
        exact ⟨hvisited, fun w hw hmem => hfresh w hw (List.mem_cons_of_mem _ hmem)⟩

/-- **Completions.**  The completions of a walk are those through the successors of its end. -/
theorem encard_completions (hedges : edges.Nodup) {goal v : α} {visited : List α}
    (hgoal : goal ∉ visited) : (completions source target edges goal v visited).encard
      = ((successors source target edges v).map
          (completionsVia source target edges goal visited)).sum := by
  have hfirst (l : List ε) (hl : l.Nodup) (hsub : ∀ e ∈ l, e ∈ edges ∧ source e = v) :
      {es ∈ completions source target edges goal v visited | ∃ e ∈ l, ∃ fs, es = e :: fs}.encard
        = ((l.map target).map (completionsVia source target edges goal visited)).sum := by
    induction l with
    | nil => simp
    | cons e l ih =>
      obtain ⟨hother, hl⟩ := List.nodup_cons.mp hl
      obtain ⟨⟨he, hsource⟩, hsub⟩ := List.forall_mem_cons.mp hsub
      have hsplit : {es ∈ completions source target edges goal v visited
            | ∃ d ∈ e :: l, ∃ fs, es = d :: fs}
          = {es ∈ completions source target edges goal v visited | ∃ fs, es = e :: fs}
            ∪ {es ∈ completions source target edges goal v visited | ∃ d ∈ l, ∃ fs, es = d :: fs} := by
        ext es
        simp only [List.mem_cons, Set.mem_ofPred_eq, Set.mem_union]
        constructor
        · rintro ⟨hes, d, rfl | hd, hfs⟩
          · exact .inl ⟨hes, hfs⟩
          · exact .inr ⟨hes, d, hd, hfs⟩
        · rintro (⟨hes, hfs⟩ | ⟨hes, d, hd, hfs⟩)
          · exact ⟨hes, e, .inl rfl, hfs⟩
          · exact ⟨hes, d, .inr hd, hfs⟩
      rw [hsplit, Set.encard_union_eq, encard_completions_cons hgoal he hsource, ih hl hsub]
      · rfl
      · refine Set.disjoint_left.mpr ?_
        rintro es ⟨-, fs, rfl⟩ ⟨-, d, hd, gs, heq⟩
        exact hother ((List.cons.inj heq).1 ▸ hd)
  have hall := hfirst (edges.filter (source · = v)) (hedges.filter _) (by simp)
  have hevery : {es ∈ completions source target edges goal v visited
      | ∃ e ∈ edges.filter (source · = v), ∃ fs, es = e :: fs}
      = completions source target edges goal v visited := by
    refine Set.sep_eq_self_iff_mem_true.mpr fun es hes => ?_
    obtain ⟨hne, hwalk, -⟩ := hes
    cases es with
    | nil => exact absurd rfl hne
    | cons e es => exact ⟨e, by simpa using ⟨hwalk.1, hwalk.2.1⟩, es, rfl⟩
  rw [hevery] at hall
  exact hall

variable (source target edges) in
/-- The walks that the search still has to count. -/
noncomputable def PathSearch.pending (goal : α) (s : PathSearch α) : ℕ∞ :=
  (s.stack.map fun p => (completions source target edges goal p.1 p.2).encard).sum

/-- Following counts a walk or keeps it for later. -/
theorem pending_foldl_follow {goal : α} {visited : List α} (children : List α) (s : PathSearch α) :
    ((children.foldl (PathSearch.follow goal visited) s).count : ℕ∞)
        + (children.foldl (PathSearch.follow goal visited) s).pending source target edges goal
      = s.count + s.pending source target edges goal
        + (children.map (completionsVia source target edges goal visited)).sum := by
  induction children generalizing s with
  | nil => simp
  | cons child children ih =>
    rw [List.foldl_cons, ih, List.map_cons, List.sum_cons, PathSearch.follow, completionsVia]
    by_cases hgoal : child = goal
    · rw [if_pos hgoal, if_pos hgoal, Nat.cast_add, Nat.cast_one]
      show s.count + 1 + s.pending source target edges goal + _ = _
      ring
    by_cases hvisited : child ∈ visited
    · rw [if_neg hgoal, if_pos hvisited, if_neg hgoal, if_pos hvisited, zero_add]
    · rw [if_neg hgoal, if_neg hvisited, if_neg hgoal, if_neg hvisited]
      unfold PathSearch.pending
      rw [List.map_cons, List.sum_cons]
      ring

variable (target edges) in
/-- An upper bound on the steps that a walk in the stack takes. -/
def workLeft (visited : List α) : ℕ := (edges.length + 1) ^ (unvisited target edges visited).card

theorem workLeft_cons {v child : α} {visited : List α}
    (hchild : child ∈ successors source target edges v) (hfresh : child ∉ visited) :
    (edges.length + 1) * workLeft target edges (child :: visited) = workLeft target edges visited := by
  have hperm : unvisited target edges (child :: visited) = unvisited target edges (visited ++ [child]) := by
    ext w
    simp [unvisited]
  have hcard : (unvisited target edges (visited ++ [child])).card + [child].length
      = (unvisited target edges visited).card :=
    card_unvisited_append (List.nodup_singleton child)
      (by simpa using successor_mem_unvisited hchild hfresh)
  rw [List.length_singleton] at hcard
  unfold workLeft
  rw [hperm, ← hcard, pow_succ']

/-- What following adds to the stack is less work than what was taken from it. -/
theorem work_foldl_follow {goal v : α} {visited : List α} (children : List α) (s : PathSearch α)
    (hchildren : ∀ child ∈ children, child ∈ successors source target edges v) :
    (edges.length + 1) * (((children.foldl (PathSearch.follow goal visited) s).stack.map
        fun p => workLeft target edges p.2).sum)
      ≤ (edges.length + 1) * ((s.stack.map fun p => workLeft target edges p.2).sum)
        + children.length * workLeft target edges visited := by
  induction children generalizing s with
  | nil => simp
  | cons child children ih =>
    obtain ⟨hchild, hrest⟩ := List.forall_mem_cons.mp hchildren
    rw [List.foldl_cons, List.length_cons]
    refine (ih _ hrest).trans ?_
    unfold PathSearch.follow
    rw [Nat.succ_mul children.length]
    split_ifs with hgoal hvisited
    · exact Nat.add_le_add_left (Nat.le_add_right _ _) _
    · exact Nat.add_le_add_left (Nat.le_add_right _ _) _
    · have hwork := workLeft_cons hchild hvisited
      rw [List.map_cons, List.sum_cons, Nat.mul_add, hwork]
      omega

theorem preserves_pathStep {η : Type} (hedges : edges.Nodup) {goal : α} {total : ℕ∞} :
    Preserves (pathStep (η := η) source target edges goal)
      (fun s => (∀ p ∈ s.stack, goal ∉ p.2)
        ∧ s.count + s.pending source target edges goal = total)
      (fun s => (s.stack.map fun p => workLeft target edges p.2).sum)
      fun n => ∃ k : ℕ, n = max 1 k ∧ (k : ℕ∞) = total := by
  rintro s r ⟨hstack, htotal⟩ hstep
  unfold pathStep at hstep
  cases hs : s.stack with
  | nil =>
    rw [hs] at hstep
    obtain rfl := Except.ok.inj hstep
    refine ⟨s.count, rfl, ?_⟩
    rw [← htotal, PathSearch.pending, hs]
    simp
  | cons p stack =>
    obtain ⟨v, visited⟩ := p
    have hgoal : goal ∉ visited := hstack (v, visited) (by simp [hs])
    rw [hs] at hstep
    obtain rfl := Except.ok.inj hstep
    refine ⟨⟨?_, ?_⟩, ?_⟩
    · have hkeeps (children : List α) (s : PathSearch α) (hs : ∀ p ∈ s.stack, goal ∉ p.2) :
          ∀ p ∈ (children.foldl (PathSearch.follow goal visited) s).stack, goal ∉ p.2 := by
        refine List.foldlRecOn children (PathSearch.follow goal visited)
          (motive := fun s => ∀ p ∈ s.stack, goal ∉ p.2) hs fun s hs child _ => ?_
        unfold PathSearch.follow
        split_ifs with hmeets hvisited
        · exact hs
        · exact hs
        · refine List.forall_mem_cons.mpr ⟨?_, hs⟩
          rw [List.mem_cons, not_or]
          exact ⟨Ne.symm hmeets, hgoal⟩
      refine hkeeps _ _ fun p hp => hstack p ?_
      rw [hs]
      exact List.mem_cons_of_mem _ hp
    · rw [pending_foldl_follow, ← encard_completions hedges hgoal, ← htotal]
      unfold PathSearch.pending
      rw [hs, List.map_cons, List.sum_cons]
      ring
    · have hwork := @work_foldl_follow _ _ _ source target edges goal v visited
        (successors source target edges v) { s with stack } fun _ h => h
      have hfew : (successors source target edges v).length ≤ edges.length := by
        rw [successors, List.length_map]
        exact List.length_filter_le _ _
      have hpositive : 0 < workLeft target edges visited := by
        unfold workLeft
        exact Nat.pow_pos (Nat.succ_pos _)
      simp only [hs, List.map_cons, List.sum_cons]
      dsimp only at hwork
      refine Nat.lt_of_mul_lt_mul_left (a := edges.length + 1) (hwork.trans_lt ?_)
      rw [Nat.mul_add]
      have hless : (successors source target edges v).length * workLeft target edges visited
          < (edges.length + 1) * workLeft target edges visited :=
        Nat.mul_lt_mul_of_pos_right (Nat.lt_succ_of_le hfew) hpositive
      omega

/-- **Paths.**  The search counts the simple walks to every vertex that can be reached. -/
theorem exists_pathCount {η : Type} (stop : η) (hedges : edges.Nodup) {root goal : α}
    (hne : root ≠ goal) (hreach : (listGraph source target edges).Reachable root goal) :
    ∃ k : ℕ, pathCount source target edges stop root goal = .ok k
      ∧ (k : ℕ∞) = ((listGraph source target edges).simpleWalks root goal).encard := by
  have hdefined (s : PathSearch α) : ∃ r, pathStep (η := η) source target edges goal s = .ok r := by
    unfold pathStep
    split <;> exact ⟨_, rfl⟩
  have hfuel : (([(root, [root])] : List (α × List α)).map fun p => workLeft target edges p.2).sum
      < (edges.length + 1) ^ edges.length + 1 := by
    rw [List.map_singleton, List.sum_singleton]
    exact Nat.lt_succ_of_le (Nat.pow_le_pow_right (Nat.succ_pos _) (card_unvisited_le _))
  obtain ⟨k, hk, n, rfl, hn⟩ : ∃ k : ℕ, pathCount source target edges stop root goal = .ok k
      ∧ ∃ n : ℕ, k = max 1 n ∧ (n : ℕ∞) = (completions source target edges goal root [root]).encard :=
    exists_loop (preserves_pathStep hedges) (fun s _ => hdefined s)
      ⟨by simpa using hne.symm, by simp [PathSearch.pending]⟩ hfuel
  rw [completions_eq_simpleWalks hne] at hn
  refine ⟨_, hk, ?_⟩
  -- There is at least one walk.
  obtain ⟨es, hes, hend⟩ := hreach
  obtain ⟨fs, hfs, hsame, -⟩ := Multigraph.exists_simple hes
  have hpositive : 1 ≤ n := by
    have hsome : ((listGraph source target edges).simpleWalks root goal).encard ≠ 0 :=
      Set.encard_ne_zero.mpr ⟨fs, hfs, hsame.trans hend⟩
    rw [← hn] at hsome
    exact Nat.one_le_iff_ne_zero.mpr (by exact_mod_cast hsome)
  rw [max_eq_right hpositive, hn]

end Search

end Agora
