import Agora.Lib.Runs
import Agora.Marl.Verified

namespace Agora.Marl

/-!
# Continuity of trajectories

Every transition validates its own two observations, and nothing compares the observation after a
transition with the one before the next.  `continuous_iff` says what an episode needs for its
trajectory to be continuous, and `discontinuous` is a valid episode whose watermarks go back.
-/

def preObservation (t : TransitionV1) : MarlObservationV1 := t.content.boundary.content.observation

def postObservation (t : TransitionV1) : MarlObservationV1 := t.content.postObservation

def watermark (o : MarlObservationV1) : ℕ := o.content.ledgerSeq

/-- Each transition starts in the observation the one before it ended in, the watermarks never
    decrease, and only the last transition of an episode without a pending boundary is terminal. -/
structure MarlEpisodeV1.Continuous (e : MarlEpisodeV1) : Prop where
  same : e.transitions.IsChain fun t u =>
    t.content.postObservation = u.content.boundary.content.observation
  watermarks : e.observations.Pairwise fun o o' => o.content.ledgerSeq ≤ o'.content.ledgerSeq
  last : ∀ t ∈ e.transitions.dropLast, t.content.terminal = false
  pending : e.pendingBoundary.isSome → ∀ t ∈ e.transitions, t.content.terminal = false

/-- Neighbouring transitions share an observation, and a pending boundary can follow the last
    transition. -/
structure MarlEpisodeV1.Connected (e : MarlEpisodeV1) : Prop where
  neighbours : Linked preObservation postObservation e.transitions
  pending : ∀ b ∈ e.pendingBoundary, ∀ t ∈ e.transitions.getLast?, t.content.terminal = false
    ∧ t.content.postObservation.content.ledgerSeq ≤ b.content.observation.content.ledgerSeq

theorem watermark_le (t : TransitionV1) :
    watermark (preObservation t) ≤ watermark (postObservation t) := by
  obtain ⟨-, -, -, -, hwatermark, -⟩ := t.content.shape
  exact hwatermark

theorem terminal_eq (t : TransitionV1) :
    t.content.terminal = (postObservation t).content.terminal := by
  obtain ⟨-, -, -, -, -, hterminal, -⟩ := t.content.shape
  exact hterminal

theorem not_terminal_preObservation (t : TransitionV1) :
    (preObservation t).content.terminal = false := by
  obtain ⟨-, -, -, -, -, -, -, -, hterminal, -⟩ := t.content.boundary.content.references
  exact hterminal

theorem observations_eq_trace (e : MarlEpisodeV1) :
    e.observations = trace preObservation postObservation e.transitions
      ++ (e.pendingBoundary.map (·.content.observation)).toList := by
  rw [MarlEpisodeV1.observations]
  cases e.pendingBoundary <;> rfl

/-- **Continuity.**  A trajectory is continuous exactly when its transitions are connected. -/
theorem continuous_iff (e : MarlEpisodeV1) : e.Continuous ↔ e.Connected := by
  constructor
  · intro h
    refine ⟨h.same, fun b hb t ht => ⟨?_, ?_⟩⟩
    · exact h.pending (by rw [hb]; rfl) t (List.mem_of_mem_getLast? ht)
    · have hwatermarks := h.watermarks
      rw [observations_eq_trace, hb, List.pairwise_append] at hwatermarks
      have hlast : postObservation t ∈ trace preObservation postObservation e.transitions := by
        refine List.mem_of_mem_getLast? ?_
        rw [getLast?_trace, ht]
        rfl
      exact hwatermarks.2.2 _ hlast _ (List.mem_singleton_self _)
  · intro h
    -- The observation before a transition is not terminal, so neither is the one it is linked to.
    have hlast : ∀ t ∈ e.transitions.dropLast, t.content.terminal = false := by
      intro t ht
      rw [terminal_eq]
      exact forall_mem_dropLast_of_linked (P := fun o => o.content.terminal = false)
        (fun u _ => not_terminal_preObservation u) h.neighbours t ht
    refine ⟨h.neighbours, ?_, hlast, fun hpending t ht => ?_⟩
    · rw [observations_eq_trace]
      refine pairwise_trace_of_linked (f := watermark) (fun t _ => watermark_le t) h.neighbours ?_
      intro t ht o ho
      obtain ⟨b, hb, rfl⟩ := Option.map_eq_some_iff.mp ho
      exact (h.pending b hb t ht).2
    · obtain ⟨b, hb⟩ := Option.isSome_iff_exists.mp hpending
      have hne := List.ne_nil_of_mem ht
      rw [← List.dropLast_append_getLast hne, List.mem_append, List.mem_singleton] at ht
      rcases ht with ht | rfl
      · exact hlast t ht
      · exact (h.pending b hb _ (List.getLast?_eq_some_getLast hne)).1

/-! ### A discontinuous episode -/

section Sample

attribute [local instance] canonicalRuntime

/-- A first transition up to watermark 5. -/
def ahead : Transition :=
  sample.transition sample.firstBoundary
    (.sealed (sample.observation (sample.componentIds 1) 1 5 none)) ⟨rfl, rfl, rfl, Nat.zero_le _⟩

/-- A second transition from watermark 0. -/
def behind : Transition :=
  sample.transition
    (.sealed (sample.boundary (sample.componentIds 1)
      (.sealed (sample.observation (sample.componentIds 1) 1 0 none)) rfl rfl))
    (.sealed (sample.observation (sample.componentIds 2) 2 0 (some sample.reasonCode)))
    ⟨rfl, rfl, rfl, Nat.zero_le _⟩

/-- A completed episode of the two. -/
def discontinuous : MarlEpisodeV1 :=
  { sample.completed with
    transitions := [⟨ahead, sha256Hash [0]⟩, ⟨behind, sha256Hash [1]⟩] }

/-- The episode is valid, and its watermarks decrease. -/
theorem discontinuous_not_continuous :
    discontinuous.Valid ∧ ¬ discontinuous.Continuous := by
  constructor
  · have hall {P : TransitionV1 → Prop} (hahead : P ⟨ahead, sha256Hash [0]⟩)
        (hbehind : P ⟨behind, sha256Hash [1]⟩) : ∀ t ∈ discontinuous.transitions, P t :=
      List.forall_mem_cons.mpr ⟨hahead, List.forall_mem_singleton.mpr hbehind⟩
    exact
      { unique := List.nodup_cons.mpr ⟨by
          rw [List.map_singleton, List.mem_singleton]
          decide +kernel, List.nodup_singleton _⟩
        gapless := rfl
        episode := hall rfl rfl
        scope := hall ⟨⟨rfl, rfl⟩, rfl, rfl⟩ ⟨⟨rfl, rfl⟩, rfl, rfl⟩
        pending_scope := sample.valid_completed.pending_scope
        shape := ⟨⟨_, rfl, rfl⟩, rfl, rfl⟩ }
  · intro h
    have hsame := (List.isChain_cons_cons.mp h.same).1
    have hseq : (5 : ℕ) = 0 := congrArg watermark hsame
    cases hseq

end Sample

end Agora.Marl
