import Mathlib.Data.Set.Card
import Mathlib.Data.List.Nodup

namespace Agora

/-!
# Walks in directed multigraphs

A walk is the list of its edges, so parallel edges give different walks.  A simple walk meets no
vertex twice; every walk has a simple one inside it (`exists_simple`), which is why a shortest walk
can be taken to be simple.

A *window* of depth `d` is what the simple walks of at most `d` edges meet.  Windows around enough
vertices see every edge of every simple walk from the first one, however long it is
(`mem_edgeWindow_of_simple`).
-/

/-- A directed multigraph: the ends of every edge, and which edges there are. -/
structure Multigraph (α ε : Type) where
  source : ε → α
  target : ε → α
  edges : Set ε

namespace Multigraph

variable {α ε : Type} (G : Multigraph α ε)

/-! ### Walks -/

/-- Edges, each of which starts where the one before it ends. -/
def IsWalk : α → List ε → Prop
  | _, [] => True
  | u, e :: es => e ∈ G.edges ∧ G.source e = u ∧ IsWalk (G.target e) es

/-- Where a walk ends. -/
def walkEnd : α → List ε → α
  | u, [] => u
  | _, e :: es => walkEnd (G.target e) es

/-- The vertices of a walk, in order. -/
def vertices (u : α) (es : List ε) : List α := u :: es.map G.target

/-- A walk that meets no vertex twice. -/
def IsSimple (u : α) (es : List ε) : Prop := G.IsWalk u es ∧ (G.vertices u es).Nodup

def Reachable (u v : α) : Prop := ∃ es, G.IsWalk u es ∧ G.walkEnd u es = v

/-- The least length of a walk between two vertices. -/
def IsDistance (u v : α) (k : ℕ) : Prop :=
  IsLeast {n | ∃ es, G.IsWalk u es ∧ G.walkEnd u es = v ∧ es.length = n} k

/-- The simple walks between two vertices. -/
def simpleWalks (u v : α) : Set (List ε) := {es | G.IsSimple u es ∧ G.walkEnd u es = v}

variable {G} {u v : α} {es fs : List ε} {e : ε}

@[simp] theorem walkEnd_nil : G.walkEnd u [] = u := rfl

@[simp] theorem walkEnd_cons : G.walkEnd u (e :: es) = G.walkEnd (G.target e) es := rfl

@[simp] theorem isWalk_nil : G.IsWalk u [] := trivial

theorem isWalk_cons :
    G.IsWalk u (e :: es) ↔ e ∈ G.edges ∧ G.source e = u ∧ G.IsWalk (G.target e) es := Iff.rfl

@[simp] theorem walkEnd_append : G.walkEnd u (es ++ fs) = G.walkEnd (G.walkEnd u es) fs := by
  induction es generalizing u with
  | nil => rfl
  | cons e es ih => exact ih

theorem isWalk_append :
    G.IsWalk u (es ++ fs) ↔ G.IsWalk u es ∧ G.IsWalk (G.walkEnd u es) fs := by
  induction es generalizing u with
  | nil => simp
  | cons e es ih => simp [isWalk_cons, ih, and_assoc]

theorem walkEnd_mem_vertices : G.walkEnd u es ∈ G.vertices u es := by
  induction es generalizing u with
  | nil => simp [vertices]
  | cons e es ih => exact List.mem_cons_of_mem _ ih

/-- A walk can be cut at every vertex it meets. -/
theorem exists_append_of_mem_vertices (h : v ∈ G.vertices u es) :
    ∃ fs gs, es = fs ++ gs ∧ G.walkEnd u fs = v := by
  induction es generalizing u with
  | nil => exact ⟨[], [], rfl, (List.mem_singleton.mp h).symm⟩
  | cons e es ih =>
    rcases List.mem_cons.mp h with rfl | h
    · exact ⟨[], e :: es, rfl, rfl⟩
    · obtain ⟨fs, gs, rfl, hend⟩ := ih h
      exact ⟨e :: fs, gs, rfl, hend⟩

theorem isSimple_nil : G.IsSimple u [] := ⟨trivial, by simp [vertices]⟩

theorem isSimple_cons : G.IsSimple u (e :: es)
    ↔ (e ∈ G.edges ∧ G.source e = u) ∧ u ∉ G.vertices (G.target e) es
      ∧ G.IsSimple (G.target e) es := by
  unfold IsSimple
  rw [isWalk_cons, vertices, List.map_cons, List.nodup_cons]
  show _ ∧ u ∉ G.vertices (G.target e) es ∧ (G.vertices (G.target e) es).Nodup ↔ _
  tauto

/-- The first part of a simple walk is simple. -/
theorem IsSimple.left (h : G.IsSimple u (es ++ fs)) : G.IsSimple u es := by
  refine ⟨(isWalk_append.mp h.1).1, h.2.sublist ?_⟩
  unfold vertices
  rw [List.map_append]
  exact (List.sublist_append_left _ _).cons_cons u

/-- The rest of a simple walk is simple. -/
theorem IsSimple.right (h : G.IsSimple u (es ++ fs)) : G.IsSimple (G.walkEnd u es) fs := by
  induction es generalizing u with
  | nil => exact h
  | cons e es ih => exact ih (isSimple_cons.mp h).2.2

/-- A simple walk goes on along an edge to a vertex that it has not met. -/
theorem isSimple_concat : G.IsSimple u (es ++ [e]) ↔ G.IsSimple u es
    ∧ (e ∈ G.edges ∧ G.source e = G.walkEnd u es) ∧ G.target e ∉ G.vertices u es := by
  have hvertices : G.vertices u (es ++ [e]) = G.vertices u es ++ [G.target e] := by simp [vertices]
  unfold IsSimple
  rw [isWalk_append, isWalk_cons, hvertices, List.nodup_append_comm, List.singleton_append,
    List.nodup_cons]
  simp only [isWalk_nil, and_true]
  tauto

theorem IsSimple.take (h : G.IsSimple u es) (n : ℕ) : G.IsSimple u (es.take n) := by
  rw [← List.take_append_drop n es] at h
  exact h.left

/-- **Simple walks.**  Inside every walk there is a simple one with the same ends. -/
theorem exists_simple (h : G.IsWalk u es) : ∃ fs, G.IsSimple u fs
    ∧ G.walkEnd u fs = G.walkEnd u es ∧ fs.length ≤ es.length := by
  induction es generalizing u with
  | nil => exact ⟨[], isSimple_nil, rfl, le_rfl⟩
  | cons e es ih =>
    obtain ⟨hedge, hsource, hrest⟩ := h
    obtain ⟨fs, hfs, hend, hlength⟩ := ih hrest
    by_cases hmem : u ∈ G.vertices (G.target e) fs
    · -- The walk comes back to its start: what it does before that can be left out.
      obtain ⟨gs, rs, rfl, hu⟩ := exists_append_of_mem_vertices hmem
      have hsimple := hfs.right
      rw [hu] at hsimple
      refine ⟨rs, hsimple, ?_, ?_⟩
      · rw [walkEnd_append, hu] at hend
        exact hend
      · rw [List.length_append] at hlength
        rw [List.length_cons]
        omega
    · refine ⟨e :: fs, isSimple_cons.mpr ⟨⟨hedge, hsource⟩, hmem, hfs⟩, hend, ?_⟩
      exact Nat.succ_le_succ hlength

theorem Reachable.refl : G.Reachable u u := ⟨[], trivial, rfl⟩

theorem Reachable.append {w : α} (h : G.Reachable u v) (h' : G.Reachable v w) : G.Reachable u w := by
  obtain ⟨es, hes, rfl⟩ := h
  obtain ⟨fs, hfs, rfl⟩ := h'
  exact ⟨es ++ fs, isWalk_append.mpr ⟨hes, hfs⟩, walkEnd_append⟩

/-- Only the empty walk is simple and ends where it starts. -/
theorem simpleWalks_self : G.simpleWalks u u = {[]} := by
  ext es
  constructor
  · rintro ⟨hes, hend⟩
    cases es with
    | nil => rfl
    | cons e es =>
      have hmem : G.walkEnd (G.target e) es ∈ G.vertices (G.target e) es := walkEnd_mem_vertices
      rw [show G.walkEnd (G.target e) es = u from hend] at hmem
      exact absurd hmem (isSimple_cons.mp hes).2.1
  · rintro rfl
    exact ⟨isSimple_nil, rfl⟩

/-! ### Distances -/

theorem exists_isDistance (h : G.Reachable u v) : ∃ k, G.IsDistance u v k := by
  classical
  obtain ⟨es, hes, hend⟩ := h
  have hexists : ∃ n, ∃ es, G.IsWalk u es ∧ G.walkEnd u es = v ∧ es.length = n :=
    ⟨_, es, hes, hend, rfl⟩
  exact ⟨Nat.find hexists, Nat.find_spec hexists, fun n hn => Nat.find_min' hexists hn⟩

theorem IsDistance.reachable {k : ℕ} (h : G.IsDistance u v k) : G.Reachable u v := by
  obtain ⟨es, hes, hend, -⟩ := h.1
  exact ⟨es, hes, hend⟩

theorem IsDistance.unique {j k : ℕ} (h : G.IsDistance u v j) (h' : G.IsDistance u v k) : j = k :=
  IsLeast.unique h h'

theorem isDistance_self : G.IsDistance u u 0 := ⟨⟨[], trivial, rfl, rfl⟩, fun _ _ => Nat.zero_le _⟩

/-- An edge leads at most one step further away. -/
theorem IsDistance.le_succ {j k : ℕ} (h : G.IsDistance u (G.source e) k) (he : e ∈ G.edges)
    (h' : G.IsDistance u (G.target e) j) : j ≤ k + 1 := by
  obtain ⟨es, hes, hend, rfl⟩ := h.1
  refine h'.2 ⟨es ++ [e], isWalk_append.mpr ⟨hes, he, hend.symm, trivial⟩, ?_, by simp⟩
  rw [walkEnd_append]
  rfl

/-- What is one step further away is next to something that is not. -/
theorem IsDistance.exists_edge {k : ℕ} (h : G.IsDistance u v (k + 1)) :
    ∃ e ∈ G.edges, G.target e = v ∧ G.IsDistance u (G.source e) k := by
  obtain ⟨es, hes, hend, hlength⟩ := h.1
  cases es using List.reverseRecOn with
  | nil => cases hlength
  | append_singleton es e =>
    obtain ⟨hwalk, he, hsource, -⟩ := isWalk_append.mp hes
    rw [walkEnd_append] at hend
    rw [List.length_append, List.length_singleton] at hlength
    refine ⟨e, he, hend, ⟨es, hwalk, hsource.symm, Nat.succ.inj hlength⟩, ?_⟩
    rintro n ⟨fs, hfs, hfend, rfl⟩
    -- A shorter walk to the neighbour would give a shorter walk to the vertex.
    have hshort : k + 1 ≤ fs.length + 1 := h.2 ⟨fs ++ [e], isWalk_append.mpr ⟨hfs, he, hfend.symm, trivial⟩,
      walkEnd_append.trans hend, by simp⟩
    omega

/-! ### Windows -/

variable (G) in
/-- The vertices on the simple walks of at most `d` edges. -/
def window (d : ℕ) (u : α) : Set α :=
  {v | ∃ es, G.IsSimple u es ∧ es.length ≤ d ∧ v ∈ G.vertices u es}

variable (G) in
/-- The edges on the simple walks of at most `d` edges. -/
def edgeWindow (d : ℕ) (u : α) : Set ε := {e | ∃ es, G.IsSimple u es ∧ es.length ≤ d ∧ e ∈ es}

variable (G) in
/-- Some simple walk has more than `d` edges. -/
def Exceeds (d : ℕ) (u : α) : Prop := ∃ es, G.IsSimple u es ∧ es.length = d + 1

variable {d : ℕ}

theorem self_mem_window : u ∈ G.window d u := ⟨[], isSimple_nil, Nat.zero_le d, by simp [vertices]⟩

/-- A window holds the ends of the walks. -/
theorem mem_window_iff : v ∈ G.window d u
    ↔ ∃ es, G.IsSimple u es ∧ es.length ≤ d ∧ G.walkEnd u es = v := by
  constructor
  · rintro ⟨es, hes, hlength, hv⟩
    obtain ⟨fs, gs, rfl, hend⟩ := exists_append_of_mem_vertices hv
    refine ⟨fs, hes.left, ?_, hend⟩
    rw [List.length_append] at hlength
    omega
  · rintro ⟨es, hes, hlength, rfl⟩
    exact ⟨es, hes, hlength, walkEnd_mem_vertices⟩

theorem reachable_of_mem_window (h : v ∈ G.window d u) : G.Reachable u v := by
  obtain ⟨es, hes, -, hend⟩ := mem_window_iff.mp h
  exact ⟨es, hes.1, hend⟩

/-- A window holds the last edges of the walks. -/
theorem mem_edgeWindow_iff : e ∈ G.edgeWindow d u
    ↔ ∃ es, G.IsSimple u (es ++ [e]) ∧ es.length < d := by
  constructor
  · rintro ⟨es, hes, hlength, he⟩
    obtain ⟨fs, gs, rfl⟩ := List.append_of_mem he
    refine ⟨fs, ?_, ?_⟩
    · rw [List.append_cons] at hes
      exact hes.left
    · rw [List.length_append, List.length_cons] at hlength
      omega
  · rintro ⟨es, hes, hlength⟩
    refine ⟨es ++ [e], hes, ?_, by simp⟩
    rw [List.length_append, List.length_singleton]
    omega

theorem edge_of_mem_edgeWindow (h : e ∈ G.edgeWindow d u) : e ∈ G.edges := by
  obtain ⟨es, hes, -⟩ := mem_edgeWindow_iff.mp h
  exact (isWalk_append.mp hes.1).2.1

theorem target_mem_window (h : e ∈ G.edgeWindow d u) : G.target e ∈ G.window d u := by
  obtain ⟨es, hes, hlength, he⟩ := h
  exact ⟨es, hes, hlength, List.mem_cons_of_mem _ (List.mem_map_of_mem he)⟩

/-- Without a longer simple walk the window sees every simple walk. -/
theorem length_le_of_not_exceeds (h : ¬ G.Exceeds d u) (hes : G.IsSimple u es) : es.length ≤ d := by
  by_contra hlength
  exact h ⟨es.take (d + 1), hes.take _, by rw [List.length_take]; omega⟩

/-- A simple walk has no edge twice. -/
theorem IsSimple.nodup (h : G.IsSimple u es) : es.Nodup :=
  (List.nodup_cons.mp h.2).2.of_map

/-- **Windows.**  Where the vertices in the windows of too long walks have windows of their own,
    every edge of a simple walk is in some window. -/
theorem mem_edgeWindow_of_simple {X : Set α} (hu : u ∈ X)
    (hclosed : ∀ v ∈ X, G.Exceeds d v → G.window d v ⊆ X) (hd : 0 < d ∨ ¬ G.Exceeds d u)
    (hes : G.IsSimple u es) (he : e ∈ es) : ∃ v ∈ X, e ∈ G.edgeWindow d v := by
  induction es generalizing u with
  | nil => cases he
  | cons f es ih =>
    by_cases hexceeds : G.Exceeds d u
    · have hpositive : 0 < d := hd.resolve_right (not_not.mpr hexceeds)
      have hfirst : G.IsSimple u [f] := hes.left
      rcases List.mem_cons.mp he with rfl | he
      · exact ⟨u, hu, [e], hfirst, hpositive, List.mem_singleton_self e⟩
      · -- The walk goes on from a vertex that has a window too.
        have hnext : G.target f ∈ X := by
          refine hclosed u hu hexceeds (mem_window_iff.mpr ⟨[f], hfirst, hpositive, rfl⟩)
        exact ih hnext (.inl hpositive) (isSimple_cons.mp hes).2.2 he
    · exact ⟨u, hu, f :: es, hes, length_le_of_not_exceeds hexceeds hes, he⟩

/-- The same for the vertices that can be reached. -/
theorem mem_window_of_reachable {X : Set α} (hu : u ∈ X)
    (hclosed : ∀ v ∈ X, G.Exceeds d v → G.window d v ⊆ X) (hd : 0 < d ∨ ¬ G.Exceeds d u)
    (h : G.Reachable u v) : ∃ w ∈ X, v ∈ G.window d w := by
  obtain ⟨es, hes, rfl⟩ := h
  obtain ⟨fs, hfs, hend, -⟩ := exists_simple hes
  rw [← hend]
  cases fs using List.reverseRecOn with
  | nil => exact ⟨u, hu, self_mem_window⟩
  | append_singleton fs e =>
    obtain ⟨w, hw, hedge⟩ := mem_edgeWindow_of_simple hu hclosed hd hfs (e := e) (by simp)
    refine ⟨w, hw, ?_⟩
    rw [walkEnd_append]
    exact target_mem_window hedge

/-! ### Subgraphs -/

variable (G) in
/-- The graph with some of its edges only. -/
def restrict (edges : Set ε) : Multigraph α ε := { G with edges }

theorem walkEnd_restrict {edges : Set ε} : (G.restrict edges).walkEnd u es = G.walkEnd u es := by
  induction es generalizing u with
  | nil => rfl
  | cons e es ih => exact ih

theorem isWalk_restrict {edges : Set ε} (h : edges ⊆ G.edges) :
    (G.restrict edges).IsWalk u es ↔ G.IsWalk u es ∧ ∀ e ∈ es, e ∈ edges := by
  induction es generalizing u with
  | nil => simp
  | cons e es ih =>
    rw [isWalk_cons, isWalk_cons, List.forall_mem_cons]
    have hedge : e ∈ (G.restrict edges).edges ↔ e ∈ G.edges ∧ e ∈ edges :=
      ⟨fun he => ⟨h he, he⟩, fun he => he.2⟩
    have hrest : (G.restrict edges).IsWalk ((G.restrict edges).target e) es
        ↔ G.IsWalk (G.target e) es ∧ ∀ e ∈ es, e ∈ edges := ih
    have hsource : (G.restrict edges).source e = G.source e := rfl
    rw [hedge, hrest, hsource]
    tauto

section Recorded

variable {edges : Set ε} (hsub : edges ⊆ G.edges)
  (hall : ∀ es, G.IsSimple u es → ∀ e ∈ es, e ∈ edges)
include hsub hall

/-- A subgraph with the edges of all simple walks has the same simple walks. -/
theorem simpleWalks_restrict : (G.restrict edges).simpleWalks u v = G.simpleWalks u v := by
  ext es
  have hvertices : (G.restrict edges).vertices u es = G.vertices u es := rfl
  unfold simpleWalks IsSimple
  simp only [Set.mem_ofPred_eq, walkEnd_restrict, hvertices, isWalk_restrict hsub]
  constructor
  · rintro ⟨⟨⟨hwalk, -⟩, hnodup⟩, hend⟩
    exact ⟨⟨hwalk, hnodup⟩, hend⟩
  · rintro ⟨hsimple, hend⟩
    exact ⟨⟨⟨hsimple.1, hall es hsimple⟩, hsimple.2⟩, hend⟩

/-- And the same distances. -/
theorem isDistance_restrict {k : ℕ} : (G.restrict edges).IsDistance u v k ↔ G.IsDistance u v k := by
  -- A walk that is not in the subgraph is no shorter than a simple one that is.
  have hshorter : ∀ n, (∃ es, G.IsWalk u es ∧ G.walkEnd u es = v ∧ es.length = n) →
      ∃ m ≤ n, ∃ es, (G.restrict edges).IsWalk u es ∧ (G.restrict edges).walkEnd u es = v
        ∧ es.length = m := by
    rintro n ⟨es, hes, hend, rfl⟩
    obtain ⟨fs, hfs, hsame, hlength⟩ := exists_simple hes
    refine ⟨fs.length, hlength, fs, (isWalk_restrict hsub).mpr ⟨hfs.1, hall fs hfs⟩, ?_, rfl⟩
    rw [walkEnd_restrict, hsame, hend]
  have hwalks : ∀ n, (∃ es, (G.restrict edges).IsWalk u es ∧ (G.restrict edges).walkEnd u es = v
      ∧ es.length = n) → ∃ es, G.IsWalk u es ∧ G.walkEnd u es = v ∧ es.length = n := by
    rintro n ⟨es, hes, hend, hlength⟩
    rw [walkEnd_restrict] at hend
    exact ⟨es, ((isWalk_restrict hsub).mp hes).1, hend, hlength⟩
  constructor
  · rintro ⟨hmem, hleast⟩
    refine ⟨hwalks k hmem, fun n hn => ?_⟩
    obtain ⟨m, hm, hshort⟩ := hshorter n hn
    exact (hleast hshort).trans hm
  · rintro ⟨hmem, hleast⟩
    obtain ⟨m, hm, hshort⟩ := hshorter k hmem
    obtain rfl : m = k := le_antisymm hm (hleast (hwalks m hshort))
    exact ⟨hshort, fun n hn => hleast (hwalks n hn)⟩

end Recorded

end Multigraph

end Agora
