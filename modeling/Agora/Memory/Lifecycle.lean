import Agora.Lib.VersionChain
import Agora.Memory.Store

namespace Agora.Memory

open Stateful

/-!
# The lifecycle of semantic memory

A call adds the rows of one promotion or one event (`Change`).  The events of an entry are a timeline whose
default is the implied state, so what is read follows from the general facts about timelines.
-/

/-! ### What a call does -/

/-- What a successful call adds to the tables. -/
inductive Change (s : MemoryTables) : MemoryTables → Prop
  | promoted (world : MemoryWorld) (entry : SemanticMemoryEntry) (promotion : MemoryPromotion)
      (evidence : List MemoryPromotionEvidence) :
      s.validEntry world entry = true → s.freshEntry entry = true → s.freshPromotion promotion = true →
      promotion.workspaceId = entry.workspaceId → promotion.entryId = entry.id →
      Change s
        { s with
          entries := s.entries ++ [entry]
          promotions := s.promotions ++ [promotion]
          evidence := s.evidence ++ evidence }
  | expired (world : MemoryWorld) (event : MemoryLifecycleEvent) : event.state ≠ .active →
      s.validEvent world event = true → s.freshEvent event = true →
      Change s { s with events := s.events ++ [event] }

section Calls

variable {db : MemoryDatabase} {s s' : MemoryTables} {world : MemoryWorld}

theorem insertEntry_bind {α : Type} {row : SemanticMemoryEntry}
    {g : Unit → Stateful MemoryTables PyException α} {a : α}
    (h : (insertEntry db world row >>= g) s = (.ok a, s')) : s.validEntry world row = true
      ∧ s.freshEntry row = true ∧ g () { s with entries := s.entries ++ [row] } = (.ok a, s') := by
  obtain ⟨_, t, hinsert, hrest⟩ := bind_eq_ok.mp h
  unfold insertEntry at hinsert
  obtain ⟨hvalid, hinsert⟩ := writeIf_bind_eq_ok.mp hinsert
  obtain ⟨hfresh, rfl⟩ := writeIf_eq_ok.mp hinsert
  rw [Bool.and_eq_true] at hfresh
  exact ⟨hvalid, hfresh.1, hrest⟩

theorem insertEvidence_ok {rows : List MemoryPromotionEvidence}
    (h : insertEvidence db rows s = (.ok (), s')) :
    s' = { s with evidence := s.evidence ++ rows } := by
  induction rows generalizing s with
  | nil =>
    obtain ⟨-, rfl⟩ := Prod.mk.inj h
    simp
  | cons row rows ih =>
    obtain ⟨-, hrest⟩ := writeIf_bind_eq_ok.mp h
    rw [ih hrest]
    simp

theorem promote_ok {source : ArtifactRef} {target : MemoryScope} {validation : ValidationRecord}
    (h : promote db world source target validation s = (.ok (), s')) : Change s s' := by
  cases hnamespace : target.namespaceId with
  | none =>
    simp only [promote, hnamespace] at h
    cases h
  | some namespaceId =>
    simp only [promote, hnamespace] at h
    split_ifs at h
    · cases h
    · cases h
    · obtain ⟨artifact, -, h⟩ := lift_bind_eq_ok.mp h
      obtain ⟨_, -, h⟩ := lift_bind_eq_ok.mp h
      obtain ⟨version, -, h⟩ := query_bind_eq_ok.mp h
      obtain ⟨hvalid, hfresh, h⟩ := insertEntry_bind h
      unfold insertPromotion at h
      obtain ⟨hpromotion, h⟩ := writeIf_bind_eq_ok.mp h
      rw [Bool.and_eq_true] at hpromotion
      rw [insertEvidence_ok h]
      exact .promoted world _ _ _ hvalid hfresh hpromotion.1 rfl rfl

theorem expire_ok {scope : MemoryScope} {policy : RetentionPolicy}
    (h : expire db world scope policy s = (.ok (), s')) : Change s s' := by
  cases hnamespace : scope.namespaceId with
  | none =>
    simp only [expire, hnamespace] at h
    cases h
  | some namespaceId =>
    simp only [expire, hnamespace] at h
    split_ifs at h
    · cases h
    · obtain ⟨_, -, h⟩ := query_bind_eq_ok.mp h
      obtain ⟨hvalid, h⟩ := writeIf_bind_eq_ok.mp h
      obtain ⟨hfresh, rfl⟩ := writeIf_eq_ok.mp h
      rw [Bool.and_eq_true] at hfresh
      exact .expired world _ policy.transition_shape hvalid hfresh.1

/-- **Calls.**  A call that returns adds rows, and one that raises changes nothing. -/
theorem perform_cases (db : MemoryDatabase) (request : MemoryWorld × MemoryCall) (s : MemoryTables) :
    Change s (perform db request s).2 ∨ (perform db request s).2 = s := by
  obtain ⟨world, call⟩ := request
  cases hanswer : (perform db (world, call) s).1 with
  | error e => exact .inr (rollback_snd_of_error hanswer)
  | ok u =>
    left
    have hrun : perform db (world, call) s = (.ok (), (perform db (world, call) s).2) :=
      Prod.ext hanswer rfl
    generalize (perform db (world, call) s).2 = s' at hrun
    obtain ⟨_, t, hcall, hrest⟩ := bind_eq_ok.mp (rollback_eq_ok.mp hrun)
    obtain ⟨-, rfl⟩ := writeIf_eq_ok.mp hrest
    cases call with
    | promote source target validation => exact promote_ok hcall
    | expire scope policy => exact expire_ok hcall

end Calls

/-! ### The tables -/

/-- Whether `b` may supersede `a`. -/
structure Precedes (a b : SemanticMemoryEntry) : Prop where
  workspace : a.workspaceId = b.workspaceId
  superseded : b.supersedesEntryId = some a.id
  version : b.version = a.version + 1
  scope : a.namespaceId = b.namespaceId

/-- Not two successors of one entry. -/
def Unbranched (a b : SemanticMemoryEntry) : Prop :=
  a.workspaceId = b.workspaceId → a.supersedesEntryId = b.supersedesEntryId → a.supersedesEntryId = none

structure WellFormed (s : MemoryTables) : Prop where
  ids : (s.entries.map (·.id)).Nodup
  unbranched : s.entries.Pairwise Unbranched
  previous : ∀ b ∈ s.entries, (b.version = 1 ∧ b.supersedesEntryId = none)
    ∨ ∃ a ∈ s.entries, Precedes a b
  events : ∀ w e, Timeline (·.recordedAt) (·.state) (s.eventsOf w e)
  explicit : ∀ e ∈ s.events, e.state ≠ .active

theorem eventsOf_append (s : MemoryTables) (x : MemoryLifecycleEvent) (w e : UUID) :
    ({ s with events := s.events ++ [x] } : MemoryTables).eventsOf w e
      = s.eventsOf w e ++ if x.workspaceId = w ∧ x.entryId = e then [x] else [] := by
  unfold MemoryTables.eventsOf
  rw [List.filter_append]
  by_cases hx : x.workspaceId = w ∧ x.entryId = e
  · simp [hx]
  · simp [hx]

theorem mem_of_entry? {s : MemoryTables} {w id : UUID} {e : SemanticMemoryEntry}
    (h : s.entry? w id = some e) : e ∈ s.entries ∧ e.workspaceId = w ∧ e.id = id := by
  have hfound := List.find?_some h
  exact ⟨List.mem_of_find?_eq_some h, of_decide_eq_true hfound⟩

/-- The trigger lets only a later event with a greater state follow. -/
theorem lt_of_validEvent {s : MemoryTables} {world : MemoryWorld} {x : MemoryLifecycleEvent}
    (hs : Timeline (·.recordedAt) (·.state) (s.eventsOf x.workspaceId x.entryId))
    (hstate : x.state ≠ .active) (h : s.validEvent world x = true) {prior : MemoryLifecycleEvent}
    (hprior : (s.eventsOf x.workspaceId x.entryId).getLast? = some prior) :
    prior.recordedAt < x.recordedAt ∧ prior.state < x.state := by
  unfold MemoryTables.validEvent MemoryTables.latest at h
  rw [hs.argmax_eq fun e => e.id.text, hprior, Option.all_some, Bool.and_eq_true,
    decide_eq_true_eq] at h
  obtain ⟨-, htime, harchived, hstale⟩ := h
  refine ⟨htime, ?_⟩
  cases hp : prior.state with
  | archived => exact absurd hp harchived
  | stale =>
    rw [hstale hp]
    decide
  | active =>
    cases hx : x.state with
    | active => exact absurd hx hstate
    | stale => decide
    | archived => decide

/-- **Tables.**  A call keeps them well formed. -/
theorem Change.wellFormed {s s' : MemoryTables} (h : Change s s') (hs : WellFormed s) :
    WellFormed s' := by
  cases h with
  | promoted world entry promotion evidence hvalid hfresh hpromotion hworkspace hentry =>
    unfold MemoryTables.freshEntry at hfresh
    simp only [Bool.and_eq_true, decide_eq_true_eq, List.all_eq_true, Bool.or_eq_true] at hfresh
    obtain ⟨⟨hshape, hpositive⟩, hkeys⟩ := hfresh
    refine ⟨?_, ?_, ?_, hs.events, hs.explicit⟩
    · rw [List.map_append, List.nodup_append_comm]
      refine List.nodup_cons.mpr ⟨fun hmem => ?_, hs.ids⟩
      obtain ⟨other, hother, hid⟩ := List.mem_map.mp hmem
      exact (hkeys other hother).1.1 hid
    · refine List.pairwise_append.mpr ⟨hs.unbranched, List.pairwise_singleton _ _, ?_⟩
      intro a ha b hb hab hsame
      rw [List.mem_singleton.mp hb] at hab hsame
      rcases (hkeys a ha).2 with hne | hnone
      · exact absurd (Prod.ext hab hsame) hne
      · rw [hsame, hnone]
    · intro b hb
      rcases List.mem_append.mp hb with hold | hnew
      · rcases hs.previous b hold with hfirst | ⟨a, ha, hab⟩
        · exact .inl hfirst
        · exact .inr ⟨a, List.mem_append_left _ ha, hab⟩
      · rw [List.mem_singleton.mp hnew]
        cases hsupersedes : entry.supersedesEntryId with
        | none => exact .inl ⟨hshape.mpr hsupersedes, rfl⟩
        | some id =>
          unfold MemoryTables.validEntry at hvalid
          rw [hsupersedes, Option.all_some, Bool.and_eq_true] at hvalid
          obtain ⟨prior, hprior, hnext⟩ := (Option.any_eq_true _ _).mp hvalid.2
          obtain ⟨hmem, hsame, hid⟩ := mem_of_entry? hprior
          obtain ⟨hversion, hscope⟩ := of_decide_eq_true hnext
          exact .inr ⟨prior, List.mem_append_left _ hmem,
            ⟨hsame, by rw [hsupersedes, hid], hversion, hscope.symm⟩⟩
  | expired world x hstate hvalid hfresh =>
    refine ⟨hs.ids, hs.unbranched, hs.previous, fun w e => ?_, fun y hy => ?_⟩
    · rw [eventsOf_append]
      split_ifs with hx
      · obtain ⟨rfl, rfl⟩ := hx
        apply (hs.events _ _).concat
        intro prior hprior
        exact lt_of_validEvent (hs.events _ _) hstate hvalid hprior
      · rw [List.append_nil]
        exact hs.events w e
    · rcases List.mem_append.mp hy with hold | hnew
      · exact hs.explicit y hold
      · rw [List.mem_singleton.mp hnew]
        exact hstate

theorem wellFormed_perform (db : MemoryDatabase) (request : MemoryWorld × MemoryCall) {s : MemoryTables}
    (hs : WellFormed s) : WellFormed (perform db request s).2 := by
  rcases perform_cases db request s with hchange | hsame
  · exact hchange.wellFormed hs
  · rw [hsame]
    exact hs

/-! ### Reading -/

theorem impliedState_cases (reviewBy : Option Datetime) (t : Datetime) :
    (impliedState reviewBy t = .stale ∧ ∃ due, reviewBy = some due ∧ due ≤ t)
      ∨ (impliedState reviewBy t = .active ∧ ∀ due, reviewBy = some due → ¬ due ≤ t) := by
  unfold impliedState
  by_cases hdue : reviewBy.any (· ≤ t) = true
  · obtain ⟨due, hsome, hle⟩ := (Option.any_eq_true _ _).mp hdue
    exact .inl ⟨if_pos hdue, due, hsome, of_decide_eq_true hle⟩
  · refine .inr ⟨if_neg hdue, fun due hsome hle => hdue ?_⟩
    exact (Option.any_eq_true _ _).mpr ⟨due, hsome, decide_eq_true hle⟩

theorem impliedState_mono (reviewBy : Option Datetime) : Monotone (impliedState reviewBy) := by
  intro t t' ht
  rcases impliedState_cases reviewBy t with ⟨hstate, due, hsome, hle⟩ | ⟨hstate, -⟩
  · rcases impliedState_cases reviewBy t' with ⟨hstate', -⟩ | ⟨-, hlater⟩
    · rw [hstate, hstate']
    · exact absurd (hle.trans ht) (hlater due hsome)
  · rw [hstate]
    exact MemoryState.active_le _

/-- An event says at least what is implied without it. -/
theorem impliedState_le {state : MemoryState} (h : state ≠ .active) (reviewBy : Option Datetime)
    (t : Datetime) : impliedState reviewBy t ≤ state := by
  have hstale : impliedState reviewBy t ≤ .stale := by
    rcases impliedState_cases reviewBy t with ⟨himplied, -⟩ | ⟨himplied, -⟩
    · rw [himplied]
    · rw [himplied]
      exact MemoryState.active_le _
  refine hstale.trans ?_
  cases state with
  | active => exact absurd rfl h
  | stale => exact le_rfl
  | archived => exact MemoryState.le_archived _

section Reading

variable {s : MemoryTables} (hs : WellFormed s) (w e : UUID) (reviewBy : Option Datetime)

include hs

theorem stateAsOf_eq (t : Datetime) : s.stateAsOf w e reviewBy t
    = asOf (·.recordedAt) (·.state) (impliedState reviewBy) (s.eventsOf w e) t := by
  unfold MemoryTables.stateAsOf MemoryTables.latest asOf lastAt
  rw [((hs.events w e).filter _).argmax_eq fun x => x.id.text]

theorem explicit_eventsOf {x : MemoryLifecycleEvent} (hx : x ∈ s.eventsOf w e) : x.state ≠ .active :=
  hs.explicit x (List.mem_of_mem_filter hx)

theorem stateAsOf_mono : Monotone (s.stateAsOf w e reviewBy) := by
  have h := (hs.events w e).asOf_mono (impliedState_mono reviewBy) fun x hx t =>
    impliedState_le (explicit_eventsOf hs w e hx) reviewBy t
  intro t t' ht
  rw [stateAsOf_eq hs, stateAsOf_eq hs]
  exact h ht

/-- What is read as ARCHIVED has an event that says so. -/
theorem exists_archived {t : Datetime} (h : s.stateAsOf w e reviewBy t = .archived) :
    ∃ x ∈ s.eventsOf w e, x.state = .archived := by
  rw [stateAsOf_eq hs] at h
  unfold asOf at h
  cases hlast : lastAt (·.recordedAt) (s.eventsOf w e) t with
  | none =>
    rw [hlast] at h
    change impliedState reviewBy t = .archived at h
    rcases impliedState_cases reviewBy t with ⟨himplied, -⟩ | ⟨himplied, -⟩
    · rw [himplied] at h
      cases h
    · rw [himplied] at h
      cases h
  | some x =>
    rw [hlast] at h
    exact ⟨x, (mem_of_lastAt hlast).1, h⟩

end Reading

/-- No event follows an ARCHIVED one. -/
theorem not_validEvent_of_archived {s : MemoryTables} (hs : WellFormed s) {world : MemoryWorld}
    {x y : MemoryLifecycleEvent} (hstate : x.state ≠ .active)
    (hy : y ∈ s.eventsOf x.workspaceId x.entryId) (harchived : y.state = .archived) :
    ¬ s.validEvent world x = true := by
  intro hvalid
  cases hlast : (s.eventsOf x.workspaceId x.entryId).getLast? with
  | none =>
    rw [List.getLast?_eq_none_iff.mp hlast] at hy
    exact absurd hy List.not_mem_nil
  | some prior =>
    have hle := ((hs.events _ _).le_last hlast hy).2
    have hlt := (lt_of_validEvent (hs.events _ _) hstate hvalid hlast).2
    rw [harchived] at hle
    exact absurd (hle.trans_lt hlt) (not_lt.mpr (MemoryState.le_archived _))

/-! ### Runs -/

/-- The state of an entry as of a time, if the entry is there by then. -/
def MemoryTables.stateAt (s : MemoryTables) (w e : UUID) (t : Datetime) : Option MemoryState :=
  (s.readAsOf w e t).map (·.state)

theorem stateAt_eq_some {s : MemoryTables} {w e : UUID} {t : Datetime} {a : MemoryState} :
    s.stateAt w e t = some a ↔ ∃ entry promotion, s.entry? w e = some entry ∧ entry.promotedAt ≤ t
      ∧ s.promotions.find? (fun p => p.workspaceId = w ∧ p.entryId = e) = some promotion
      ∧ s.stateAsOf w e promotion.reviewBy t = a := by
  unfold MemoryTables.stateAt MemoryTables.readAsOf
  cases hentry : s.entry? w e with
  | none => simp
  | some entry =>
    by_cases ht : entry.promotedAt ≤ t
    · cases hpromotion : s.promotions.find? (fun p => p.workspaceId = w ∧ p.entryId = e) with
      | none => simp [Option.filter, ht]
      | some promotion => simp [Option.filter, ht]
    · simp [Option.filter, ht]

/-- What the tables say of every entry. -/
structure LifecycleSound (s : MemoryTables) : Prop where
  monotone : ∀ w e t t' a, t ≤ t' → s.stateAt w e t = some a → ∃ b, s.stateAt w e t' = some b ∧ a ≤ b
  once : ∀ w e state, ((s.eventsOf w e).filter (·.state = state)).length ≤ 1
  /-- An entry ends a chain of its predecessors. -/
  chain : ∀ b ∈ s.entries, ∃ earlier : List SemanticMemoryEntry, (∀ a ∈ earlier, a ∈ s.entries
      ∧ a.workspaceId = b.workspaceId ∧ a.namespaceId = b.namespaceId)
    ∧ (earlier ++ [b]).IsChain (fun a b => b.supersedesEntryId = some a.id)
    ∧ (earlier ++ [b]).map (·.version) = List.range' 1 (earlier.length + 1)
  first : ∀ b ∈ s.entries, b.version = 1 ↔ b.supersedesEntryId = none
  unbranched : ∀ a ∈ s.entries, ∀ b ∈ s.entries, a.workspaceId = b.workspaceId →
    a.supersedesEntryId = b.supersedesEntryId → a.supersedesEntryId ≠ none → a = b

/-- What later calls may do to what is read: nothing becomes less, and nothing changes that is archived. -/
structure Grown (s s' : MemoryTables) : Prop where
  read : ∀ w e t a, s.stateAt w e t = some a → ∃ b, s'.stateAt w e t = some b ∧ a ≤ b
  archived : ∀ w e t, s.stateAt w e t = some .archived →
    s'.eventsOf w e = s.eventsOf w e ∧ ∀ t', s'.stateAt w e t' = s.stateAt w e t'

theorem Grown.refl (s : MemoryTables) : Grown s s :=
  ⟨fun _ _ _ a h => ⟨a, h, le_rfl⟩, fun _ _ _ _ => ⟨rfl, fun _ => rfl⟩⟩

theorem Grown.trans {s t u : MemoryTables} (hst : Grown s t) (htu : Grown t u) : Grown s u := by
  constructor
  · intro w e time a ha
    obtain ⟨b, hb, hab⟩ := hst.read w e time a ha
    obtain ⟨c, hc, hbc⟩ := htu.read w e time b hb
    exact ⟨c, hc, hab.trans hbc⟩
  · intro w e time h
    obtain ⟨hevents, hstates⟩ := hst.archived w e time h
    obtain ⟨hevents', hstates'⟩ := htu.archived w e time ((hstates time).trans h)
    exact ⟨hevents'.trans hevents, fun t' => (hstates' t').trans (hstates t')⟩

section Sound

variable {s s' : MemoryTables}

theorem WellFormed.sound (hs : WellFormed s) : LifecycleSound s := by
  have hpositive : ∀ b ∈ s.entries, b.version = 1 ↔ b.supersedesEntryId = none := by
    intro b hb
    rcases hs.previous b hb with ⟨hversion, hnone⟩ | ⟨a, ha, hab⟩
    · exact iff_of_true hversion hnone
    · have hversion : a.version ≠ 0 := by
        rcases hs.previous a ha with ⟨hone, -⟩ | ⟨c, -, hca⟩
        · omega
        · rw [hca.version]
          omega
      refine iff_of_false ?_ ?_
      · rw [hab.version]
        omega
      · rw [hab.superseded]
        exact Option.some_ne_none _
  refine ⟨fun w e t t' a ht h => ?_, fun w e state => ?_, fun b hb => ?_, hpositive, ?_⟩
  · obtain ⟨entry, promotion, hentry, hpromoted, hpromotion, rfl⟩ := stateAt_eq_some.mp h
    exact ⟨_, stateAt_eq_some.mpr ⟨entry, promotion, hentry, hpromoted.trans ht, hpromotion, rfl⟩,
      stateAsOf_mono hs w e promotion.reviewBy ht⟩
  · have hnodup : (((s.eventsOf w e).filter (·.state = state)).map (·.state)).Nodup :=
      ((hs.events w e).filter _).nodup_values
    have hsame : ((s.eventsOf w e).filter (·.state = state)).map (·.state)
        = List.replicate ((s.eventsOf w e).filter (·.state = state)).length state := by
      rw [List.eq_replicate_iff]
      refine ⟨List.length_map _, fun x hx => ?_⟩
      obtain ⟨event, hevent, rfl⟩ := List.mem_map.mp hx
      exact of_decide_eq_true (List.mem_filter.mp hevent).2
    rw [hsame] at hnodup
    exact List.nodup_replicate.mp hnodup
  · obtain ⟨earlier, hmem, hchain, hversions⟩ := @exists_history _
      (fun a => a ∈ s.entries ∧ a.workspaceId = b.workspaceId ∧ a.namespaceId = b.namespaceId)
      (fun a b => b.supersedesEntryId = some a.id) (·.version) (fun c ⟨hc, hworkspace, hscope⟩ => by
        rcases hs.previous c hc with ⟨hone, -⟩ | ⟨a, ha, hac⟩
        · exact .inl hone
        · exact .inr ⟨a, ⟨ha, hac.workspace.trans hworkspace, hac.scope.trans hscope⟩, hac.superseded,
            hac.version⟩) _ ⟨hb, rfl, rfl⟩
    exact ⟨earlier, hmem, hchain, hversions⟩
  · intro a ha b hb hworkspace hsame hsome
    by_contra hne
    have hsymmetric : Std.Symm Unbranched := ⟨fun x y h hw hxy => by rw [hxy, h hw.symm hxy.symm]⟩
    exact hsome (hs.unbranched.forall ha hb hne hworkspace hsame)

theorem find?_append_of_some {α : Type} {p : α → Bool} {l l' : List α} {a : α}
    (h : l.find? p = some a) : (l ++ l').find? p = some a := by
  rw [List.find?_append, h]
  rfl

/-- **Growth.**  A call takes nothing back. -/
theorem Change.grown (h : Change s s') (hs : WellFormed s) : Grown s s' := by
  have hwellFormed := h.wellFormed hs
  cases h with
  | promoted world entry promotion evidence hvalid hfresh hpromotion hworkspace hentry =>
    have hkept {w e : UUID} {t : Datetime} {a : MemoryState} (ha : s.stateAt w e t = some a)
        (t' : Datetime) : ({ s with
          entries := s.entries ++ [entry]
          promotions := s.promotions ++ [promotion]
          evidence := s.evidence ++ evidence } : MemoryTables).stateAt w e t' = s.stateAt w e t' := by
      obtain ⟨old, oldPromotion, hold, -, hpromoted, -⟩ := stateAt_eq_some.mp ha
      ext b
      rw [stateAt_eq_some, stateAt_eq_some]
      unfold MemoryTables.entry? at hold ⊢
      rw [find?_append_of_some hold, hold, find?_append_of_some hpromoted, hpromoted]
      rfl
    exact ⟨fun w e t a ha => ⟨a, (hkept ha t).trans ha, le_rfl⟩, fun w e t ha => ⟨rfl, hkept ha⟩⟩
  | expired world x hstate hvalid hfresh =>
    constructor
    · intro w e t a ha
      obtain ⟨old, oldPromotion, hold, hpromoted, hpromotion, rfl⟩ := stateAt_eq_some.mp ha
      refine ⟨_, stateAt_eq_some.mpr ⟨old, oldPromotion, hold, hpromoted, hpromotion, rfl⟩, ?_⟩
      rw [stateAsOf_eq hs, stateAsOf_eq hwellFormed, eventsOf_append]
      split_ifs with hx
      · obtain ⟨rfl, rfl⟩ := hx
        have hevents := hwellFormed.events x.workspaceId x.entryId
        rw [eventsOf_append, if_pos ⟨rfl, rfl⟩] at hevents
        exact hevents.asOf_le_append (impliedState_le hstate oldPromotion.reviewBy) t
      · rw [List.append_nil]
    · intro w e t ha
      obtain ⟨old, oldPromotion, hold, hpromoted, hpromotion, hstates⟩ := stateAt_eq_some.mp ha
      obtain ⟨y, hy, harchived⟩ := exists_archived hs w e oldPromotion.reviewBy hstates
      -- The trigger would have refused an event of this entry.
      have hother : ¬ (x.workspaceId = w ∧ x.entryId = e) := by
        rintro ⟨rfl, rfl⟩
        exact not_validEvent_of_archived hs hstate hy harchived hvalid
      have hevents : ({ s with events := s.events ++ [x] } : MemoryTables).eventsOf w e
          = s.eventsOf w e := by
        rw [eventsOf_append, if_neg hother, List.append_nil]
      refine ⟨hevents, fun t' => ?_⟩
      ext b
      rw [stateAt_eq_some, stateAt_eq_some]
      unfold MemoryTables.stateAsOf
      rw [hevents]
      rfl

theorem grown_perform (db : MemoryDatabase) (request : MemoryWorld × MemoryCall) (hs : WellFormed s) :
    Grown s (perform db request s).2 := by
  rcases perform_cases db request s with hchange | hsame
  · exact hchange.grown hs
  · rw [hsame]
    exact Grown.refl s

end Sound

theorem wellFormed_empty : WellFormed .empty :=
  ⟨List.nodup_nil, List.Pairwise.nil, List.forall_mem_nil _, fun _ _ => Timeline.nil,
    List.forall_mem_nil _⟩

/-- **Lifecycles.**  After every run the tables are sound, and what a part of a run adds takes nothing
    back. -/
theorem memory_lifecycle (db : MemoryDatabase) (requests : List (MemoryWorld × MemoryCall)) :
    LifecycleSound (after (perform db) .empty requests)
      ∧ ∀ earlier later, requests = earlier ++ later →
        Grown (after (perform db) .empty earlier) (after (perform db) .empty requests) := by
  have hwellFormed (calls : List (MemoryWorld × MemoryCall)) :
      WellFormed (after (perform db) .empty calls) :=
    after_invariant (P := fun _ _ => True) (fun s i hs _ => wellFormed_perform db i hs)
      wellFormed_empty (along_of_forall (fun _ _ => trivial) _ _)
  refine ⟨(hwellFormed requests).sound, ?_⟩
  rintro earlier later rfl
  rw [after_append]
  have hgrown : WellFormed (after (perform db) (after (perform db) .empty earlier) later)
      ∧ Grown (after (perform db) .empty earlier)
        (after (perform db) (after (perform db) .empty earlier) later) :=
    @after_invariant _ _ _ _ (fun s => WellFormed s ∧ Grown (after (perform db) .empty earlier) s)
      (fun _ _ => True) (fun s i hs _ => ⟨wellFormed_perform db i hs.1, hs.2.trans (grown_perform db i hs.1)⟩)
      _ ⟨hwellFormed earlier, Grown.refl _⟩ _ (along_of_forall (fun _ _ => trivial) _ _)
  exact hgrown.2

end Agora.Memory
