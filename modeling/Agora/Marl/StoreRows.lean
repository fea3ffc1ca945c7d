import Agora.Marl.SqlStore

namespace Agora.Marl

/-!
# The rows of the stored episodes

`Represents` relates a store in memory to the rows of the SQL store: every episode has its row and
its record rows, and reads back (`readEpisode_rows`).  A record or an episode that is added on both
sides, or an episode row that is changed, keeps the relation.
-/

section Rows

variable [Runtime]

open SqlAlchemyMarlTrajectoryStore

/-! ### The rows of an episode -/

/-- The record rows of an episode, in order. -/
def recordRows (w : UUID) (e : MarlEpisodeV1) : List MarlRecordRow :=
  e.transitions.flatMap (fun t => [boundaryRow w e t.content.boundary, transitionRow w e t])
    ++ e.pendingBoundary.toList.map (boundaryRow w e)

/-- What is stored is read back as it was. -/
def ReadsBack {C : Type} [HashedModel C] (x : Hashed C) : Prop :=
  validateRaw Hashed.codec (Hashed.codec.dump x) = .ok x

/-- An episode that its rows determine. -/
structure MarlEpisodeV1.Settled (e : MarlEpisodeV1) : Prop where
  valid : e.Valid
  next : ∀ b ∈ e.pendingBoundary, b.content.decisionIndex = e.transitions.length
  transitions : ∀ t ∈ e.transitions, ReadsBack t
  pending : ∀ b ∈ e.pendingBoundary, ReadsBack b
  marker : ∀ m ∈ e.incompleteMarker, ReadsBack m

section Episode

variable {w : UUID} {e : MarlEpisodeV1}

omit [Runtime] in
theorem decisionIndex_boundary (t : TransitionV1) :
    t.content.boundary.content.decisionIndex = t.content.decisionIndex := by
  obtain ⟨-, hindex, -⟩ := t.content.shape
  exact hindex

omit [Runtime] in
theorem lt_length_of_mem (h : e.Valid) {t : TransitionV1} (ht : t ∈ e.transitions) :
    t.content.decisionIndex < e.transitions.length := by
  have hmem := List.mem_map_of_mem (f := fun t : TransitionV1 => t.content.decisionIndex) ht
  rw [h.gapless, List.mem_range] at hmem
  exact hmem

/-- The rows are in the order in which they are read. -/
theorem pairwise_recordRows (h : e.Settled) : (recordRows w e).Pairwise RowLe := by
  have hindices : e.transitions.Pairwise fun t u =>
      t.content.decisionIndex < u.content.decisionIndex := by
    have hrange := List.pairwise_lt_range (n := e.transitions.length)
    rw [← h.valid.gapless, List.pairwise_map] at hrange
    exact hrange
  rw [recordRows, List.pairwise_append, List.pairwise_flatMap]
  refine ⟨⟨fun t ht => ?_, hindices.imp fun {t u} hlt row hrow row' hrow' => ?_⟩, ?_,
    fun row hrow row' hrow' => ?_⟩
  · refine List.pairwise_cons.mpr ⟨fun row hrow => ?_, List.pairwise_singleton _ _⟩
    rw [List.mem_singleton.mp hrow]
    exact .inr ⟨decisionIndex_boundary t, .inl rfl⟩
  · have hrow : row.decisionIndex = t.content.decisionIndex := by
      simp only [List.mem_cons, List.not_mem_nil, or_false] at hrow
      rcases hrow with rfl | rfl
      · exact decisionIndex_boundary t
      · rfl
    have hrow' : row'.decisionIndex = u.content.decisionIndex := by
      simp only [List.mem_cons, List.not_mem_nil, or_false] at hrow'
      rcases hrow' with rfl | rfl
      · exact decisionIndex_boundary u
      · rfl
    exact .inl (by rw [hrow, hrow']; exact hlt)
  · cases e.pendingBoundary with
    | none => exact List.Pairwise.nil
    | some b => exact List.pairwise_singleton _ _
  · obtain ⟨b, hb, rfl⟩ := List.mem_map.mp hrow'
    obtain ⟨t, ht, hrow⟩ := List.mem_flatMap.mp hrow
    have hlt := lt_length_of_mem h.valid ht
    have hnext := h.next b (Option.mem_toList.mp hb)
    have hrow : row.decisionIndex = t.content.decisionIndex := by
      simp only [List.mem_cons, List.not_mem_nil, or_false] at hrow
      rcases hrow with rfl | rfl
      · exact decisionIndex_boundary t
      · rfl
    refine .inl ?_
    show row.decisionIndex < b.content.decisionIndex
    omega

omit [Runtime] in
/-- The rows of a kind among rows that come in pairs. -/
theorem filter_flatMap_pair {α β : Type} {f g : α → β} {p : β → Bool} {l : List α}
    (hf : ∀ a ∈ l, p (f a) = false) (hg : ∀ a ∈ l, p (g a) = true) :
    (l.flatMap fun a => [f a, g a]).filter p = l.map g := by
  induction l with
  | nil => rfl
  | cons a l ih =>
    rw [List.flatMap_cons, List.filter_append, ih (fun b hb => hf b (List.mem_cons_of_mem _ hb))
      (fun b hb => hg b (List.mem_cons_of_mem _ hb)), List.filter_cons,
      if_neg (Bool.eq_false_iff.mp (hf a List.mem_cons_self)), List.filter_cons,
      if_pos (hg a List.mem_cons_self)]
    rfl

/-- The transition rows. -/
theorem filter_transitions :
    (recordRows w e).filter (·.recordKind = .transition) = e.transitions.map (transitionRow w e) := by
  have hpairs : (e.transitions.flatMap fun t =>
      [boundaryRow w e t.content.boundary, transitionRow w e t]).filter
        (·.recordKind = .transition) = e.transitions.map (transitionRow w e) :=
    filter_flatMap_pair (fun _ _ => rfl) (fun _ _ => rfl)
  rw [recordRows, List.filter_append, hpairs, List.filter_eq_nil_iff.mpr, List.append_nil]
  intro row hrow
  obtain ⟨b, -, rfl⟩ := List.mem_map.mp hrow
  rw [decide_eq_true_eq]
  nofun

/-- The boundary rows that no transition has closed. -/
theorem filter_openBoundaries (h : e.Settled) :
    openBoundaries (recordRows w e) (e.transitions.map (·.content.decisionIndex))
      = e.pendingBoundary.toList.map (boundaryRow w e) := by
  rw [openBoundaries, recordRows, List.filter_append, List.filter_eq_nil_iff.mpr, List.nil_append,
    List.filter_eq_self]
  · intro row hrow
    obtain ⟨b, hb, rfl⟩ := List.mem_map.mp hrow
    have hnext := h.next b (Option.mem_toList.mp hb)
    rw [Bool.and_eq_true, decide_eq_true_eq, decide_eq_true_eq, h.valid.gapless, List.mem_range]
    refine ⟨rfl, ?_⟩
    show ¬ b.content.decisionIndex < e.transitions.length
    omega
  · intro row hrow
    obtain ⟨t, ht, hrow⟩ := List.mem_flatMap.mp hrow
    simp only [List.mem_cons, List.not_mem_nil, or_false] at hrow
    rw [Bool.and_eq_true, decide_eq_true_eq, decide_eq_true_eq]
    rcases hrow with rfl | rfl
    · rintro ⟨-, hclosed⟩
      refine hclosed ?_
      show t.content.boundary.content.decisionIndex ∈ _
      rw [decisionIndex_boundary]
      exact List.mem_map_of_mem (f := fun t : TransitionV1 => t.content.decisionIndex) ht
    · nofun

/-- Rows that read back are read as what they are the rows of. -/
theorem mapM_rows {C : Type} [HashedModel C] {l : List (Hashed C)} {row : Hashed C → MarlRecordRow}
    (hpayload : ∀ x, (row x).payload = Hashed.codec.dump x) (hreads : ∀ x ∈ l, ReadsBack x) :
    (l.map row).mapM (fun item => validateRaw Hashed.codec item.payload) = .ok l := by
  rw [Except.mapM_eq_ok_iff, List.forall₂_map_left_iff]
  refine List.forall₂_same.mpr fun x hx => ?_
  rw [hpayload]
  exact hreads x hx

/-- **Reading back.**  A settled episode is read back from its rows. -/
theorem readEpisode_rows (h : e.Settled) :
    readEpisode (episodeRow e) (recordRows w e) = .ok e := by
  rw [readEpisode, filter_transitions,
    mapM_rows (fun _ => rfl) h.transitions, Except.ok_bind, filter_openBoundaries h,
    mapM_rows (fun _ => rfl) (fun b hb => h.pending b (Option.mem_toList.mp hb)), Except.ok_bind]
  have hmarker : readMarker (e.incompleteMarker.map Hashed.codec.dump) = .ok e.incompleteMarker := by
    cases hm : e.incompleteMarker with
    | none => rfl
    | some m =>
      show some <$> validateRaw Hashed.codec (Hashed.codec.dump m) = .ok (some m)
      rw [h.marker m hm]
      rfl
  rw [show (episodeRow e).incompleteMarker = e.incompleteMarker.map Hashed.codec.dump from rfl]
  rw [hmarker, Except.ok_bind, MarlEpisodeV1.validate]
  have hpending : e.pendingBoundary.toList.getLast? = e.pendingBoundary := by
    cases e.pendingBoundary <;> rfl
  rw [hpending]
  exact if_pos h.valid

end Episode

/-! ### Related stores -/

/-- Every episode in memory has its rows, and every row belongs to one. -/
structure Represents (m : MarlStore) (s : SqlStore) : Prop where
  episodes : ∀ w id, s.episodes.filter (·.at w id) = ((m (w, id)).map episodeRow).toList
  records : ∀ w id, s.records.filter (·.at w id) = (m (w, id)).elim [] (recordRows w)
  settled : ∀ w id, ∀ e ∈ m (w, id), e.Settled
  keys : ∀ w id, ∀ e ∈ m (w, id), e.workspaceId = w ∧ e.episodeId = id

section Related

variable {m : MarlStore} {s : SqlStore} {w id : UUID} {e : MarlEpisodeV1}

theorem Represents.find?_episodes (h : Represents m s) (w id : UUID) :
    s.episodes.find? (·.at w id) = (m (w, id)).map episodeRow := by
  rw [← List.head?_filter, h.episodes]
  cases m (w, id) <;> rfl

/-- What is read back is what is in memory. -/
theorem Represents.get_apply (h : Represents m s) (w id : UUID) :
    get w id s = (.ok (m (w, id)), s) := by
  unfold SqlAlchemyMarlTrajectoryStore.get
  simp only [Stateful.bind_apply, Stateful.read_apply, Stateful.andThen_ok, h.find?_episodes]
  cases hm : m (w, id) with
  | none => rfl
  | some e =>
    have hrecords := h.records w id
    have hsettled := h.settled w id e hm
    rw [hm] at hrecords
    simp only [Option.map_some, Stateful.bind_apply, Stateful.read_apply, Stateful.andThen_ok]
    rw [hrecords, Option.elim_some, (pairwise_recordRows hsettled).insertionSort_eq,
      readEpisode_rows hsettled]
    rfl

theorem Represents.required_none (h : Represents m s) (hkey : m (w, id) = none) :
    required w id s = (.error (.domain "episode not found"), s) := by
  rw [required, Stateful.bind_apply, h.get_apply, hkey]
  rfl

end Related

end Rows

end Agora.Marl
