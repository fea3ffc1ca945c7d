import Agora.Lib.Stateful
import Agora.Marl.Continuity
import Mathlib.Logic.Function.Basic

namespace Agora.Marl

/-!
# The in-memory trajectory store

Episodes by workspace and id, and the five calls that change them.  `create` and the two
finalizations leave a validated episode behind; `capture` and `close` copy the episode without
validating it, so that a run keeps its episodes valid (`store_valid`) as long as what is captured
and closed belongs to the episode (`Allowed`).
-/

section Store

variable [Runtime]

/-- What a call raises: `MarlDomainError`, its subclass `MarlConflictError`, or another
    exception. -/
inductive StoreError where
  | domain (message : String)
  | conflict (message : String)
  | raised (e : PyException)

/-- `_identity(a) == _identity(b)`. -/
def sameIdentity (a b : Json) : Py Bool := do
  let left ← canonicalHash a
  let right ← canonicalHash b
  pure (left = right)

/-- A Python computation inside a call. -/
def liftPy {σ α : Type} (x : Py α) : Stateful σ StoreError α := .lift (x.mapError .raised)

/-- The calls that write, with validated arguments. -/
inductive MarlCall where
  | create (episode : MarlEpisodeV1) (valid : episode.Valid)
  | capture (workspaceId : UUID) (boundary : DecisionBoundaryV1)
  | close (workspaceId : UUID) (transition : TransitionV1)
  | finalizeComplete (workspaceId episodeId : UUID)
  | finalizeIncomplete (workspaceId : UUID) (marker : IncompleteMarkerV1)

/-- An episode that can be created. -/
def MarlEpisodeV1.Fresh (e : MarlEpisodeV1) : Prop :=
  e.status = .open ∧ e.transitions = [] ∧ e.pendingBoundary = none

omit [Runtime] in
theorem MarlEpisodeV1.not_fresh_iff {e : MarlEpisodeV1} :
    ¬ e.Fresh ↔ e.status ≠ .open ∨ e.transitions ≠ [] ∨ e.pendingBoundary.isSome := by
  rw [MarlEpisodeV1.Fresh, not_and_or, not_and_or, ← ne_eq e.pendingBoundary,
    Option.ne_none_iff_isSome]

/-- `self._episodes`. -/
abbrev MarlStore := UUID × UUID → Option MarlEpisodeV1

namespace InMemoryMarlTrajectoryStore

abbrev Op := Stateful MarlStore StoreError

def save (key : UUID × UUID) (episode : MarlEpisodeV1) : Op MarlEpisodeV1 := do
  .write fun s => Function.update s key (some episode)
  pure episode

def create (episode : MarlEpisodeV1) : Op MarlEpisodeV1 :=
  if episode.status ≠ .open ∨ episode.transitions ≠ [] ∨ episode.pendingBoundary.isSome then
    .raise (.domain "new episode must be empty and OPEN")
  else do
    let key := (episode.workspaceId, episode.episodeId)
    match ← Stateful.read (· key) with
    | some current =>
      if ← liftPy (sameIdentity current.dump episode.dump) then pure current
      else .raise (.conflict "episode identity conflicts with existing content")
    | none => save key episode

/-- `_required`. -/
def required (workspaceId episodeId : UUID) : Op MarlEpisodeV1 := do
  match ← Stateful.read (· (workspaceId, episodeId)) with
  | some value => pure value
  | none => .raise (.domain "episode not found")

def capture (workspaceId : UUID) (boundary : DecisionBoundaryV1) : Op MarlEpisodeV1 := do
  let episode ← required workspaceId boundary.content.episodeId
  if episode.status ≠ .open then
    .raise (.conflict "finalized episode cannot accept a boundary")
  else
    match episode.pendingBoundary with
    | some pending =>
      if ← liftPy (sameIdentity (Hashed.codec.dump pending) (Hashed.codec.dump boundary)) then
        pure episode
      else .raise (.conflict "episode already has a pending boundary")
    | none =>
      if boundary.content.decisionIndex ≠ episode.transitions.length then
        .raise (.conflict "decision index must be the next gapless index")
      else
        save (workspaceId, episode.episodeId) { episode with pendingBoundary := some boundary }

def close (workspaceId : UUID) (transition : TransitionV1) : Op MarlEpisodeV1 := do
  let episode ← required workspaceId transition.content.episodeId
  match episode.transitions[transition.content.decisionIndex]? with
  | some current =>
    if ← liftPy (sameIdentity (Hashed.codec.dump current) (Hashed.codec.dump transition)) then
      pure episode
    else .raise (.conflict "transition identity conflicts with existing content")
  | none =>
    match episode.pendingBoundary with
    | some pending =>
      if episode.status ≠ .open then .raise (.conflict "episode has no pending decision")
      else if ← liftPy (sameIdentity (Hashed.codec.dump pending)
          (Hashed.codec.dump transition.content.boundary)) then
        save (workspaceId, episode.episodeId)
          { episode with transitions := episode.transitions ++ [transition], pendingBoundary := none }
      else .raise (.conflict "transition does not close the pending boundary")
    | none => .raise (.conflict "episode has no pending decision")

def finalizeComplete (workspaceId episodeId : UUID) : Op MarlEpisodeV1 := do
  let episode ← required workspaceId episodeId
  match episode.status with
  | .complete => pure episode
  | .incomplete => .raise (.conflict "episode is already incomplete")
  | .open =>
    let updated ← liftPy { episode with status := .complete }.validate
    save (workspaceId, episodeId) updated

def finalizeIncomplete (workspaceId : UUID) (marker : IncompleteMarkerV1) : Op MarlEpisodeV1 := do
  let episode ← required workspaceId marker.content.episodeId
  match episode.status with
  | .incomplete =>
    if episode.incompleteMarker = some marker then pure episode
    else .raise (.conflict "incomplete marker conflicts with existing marker")
  | .complete => .raise (.conflict "complete episode cannot become incomplete")
  | .open =>
    let updated ← liftPy
      { episode with status := .incomplete, incompleteMarker := some marker }.validate
    save (workspaceId, episode.episodeId) updated

def exec : MarlCall → Op MarlEpisodeV1
  | .create episode _ => create episode
  | .capture workspaceId boundary => capture workspaceId boundary
  | .close workspaceId transition => close workspaceId transition
  | .finalizeComplete workspaceId episodeId => finalizeComplete workspaceId episodeId
  | .finalizeIncomplete workspaceId marker => finalizeIncomplete workspaceId marker

/-! ### What a call does -/

section Calls

variable {s : MarlStore} {e : MarlEpisodeV1}

omit [Runtime] in
theorem required_some {w id : UUID} (h : s (w, id) = some e) : required w id s = (.ok e, s) := by
  simp only [required, Stateful.bind_apply, Stateful.read_apply, Stateful.andThen_ok, h,
    Stateful.pure_apply]

omit [Runtime] in
theorem required_none {w id : UUID} (h : s (w, id) = none) :
    required w id s = (.error (.domain "episode not found"), s) := by
  simp only [required, Stateful.bind_apply, Stateful.read_apply, Stateful.andThen_ok, h,
    Stateful.raise_apply]

/-- Go on by the result of a comparison. -/
def branch (same : Py Bool) (x y : Except StoreError MarlEpisodeV1 × MarlStore) (s : MarlStore) :
    Except StoreError MarlEpisodeV1 × MarlStore :=
  match same with
  | .ok true => x
  | .ok false => y
  | .error e => (.error (.raised e), s)

omit [Runtime] in
theorem compare_apply (same : Py Bool) (x y : Op MarlEpisodeV1) (s : MarlStore) :
    (liftPy same >>= fun b => if b = true then x else y) s = branch same (x s) (y s) s := by
  simp only [liftPy, Stateful.bind_apply, Stateful.lift_apply]
  cases same with
  | error e => rfl
  | ok same => cases same <;> rfl

theorem capture_pending {w : UUID} {b pending : DecisionBoundaryV1}
    (h : s (w, b.content.episodeId) = some e) (hstatus : e.status = .open)
    (hpending : e.pendingBoundary = some pending) :
    capture w b s = branch (sameIdentity (Hashed.codec.dump pending) (Hashed.codec.dump b))
      (.ok e, s) (.error (.conflict "episode already has a pending boundary"), s) s := by
  rw [capture, Stateful.bind_apply, required_some h, Stateful.andThen_ok,
    if_neg (not_not.mpr hstatus), hpending]
  exact compare_apply _ _ _ s

theorem capture_next {w : UUID} {b : DecisionBoundaryV1} (h : s (w, b.content.episodeId) = some e)
    (hstatus : e.status = .open) (hpending : e.pendingBoundary = none) :
    capture w b s = if b.content.decisionIndex = e.transitions.length then
        save (w, e.episodeId) { e with pendingBoundary := some b } s
      else (.error (.conflict "decision index must be the next gapless index"), s) := by
  rw [capture, Stateful.bind_apply, required_some h, Stateful.andThen_ok,
    if_neg (not_not.mpr hstatus), hpending]
  simp only [ne_eq, ite_not]
  split <;> rfl

theorem capture_finalized {w : UUID} {b : DecisionBoundaryV1}
    (h : s (w, b.content.episodeId) = some e) (hstatus : e.status ≠ .open) :
    capture w b s = (.error (.conflict "finalized episode cannot accept a boundary"), s) := by
  rw [capture, Stateful.bind_apply, required_some h, Stateful.andThen_ok, if_pos hstatus]
  rfl

theorem close_closed {w : UUID} {t current : TransitionV1}
    (h : s (w, t.content.episodeId) = some e)
    (hcurrent : e.transitions[t.content.decisionIndex]? = some current) :
    close w t s = branch (sameIdentity (Hashed.codec.dump current) (Hashed.codec.dump t))
      (.ok e, s) (.error (.conflict "transition identity conflicts with existing content"), s) s := by
  rw [close, Stateful.bind_apply, required_some h, Stateful.andThen_ok, hcurrent]
  exact compare_apply _ _ _ s

theorem close_pending {w : UUID} {t : TransitionV1} {pending : DecisionBoundaryV1}
    (h : s (w, t.content.episodeId) = some e)
    (hcurrent : e.transitions[t.content.decisionIndex]? = none) (hstatus : e.status = .open)
    (hpending : e.pendingBoundary = some pending) :
    close w t s = branch
      (sameIdentity (Hashed.codec.dump pending) (Hashed.codec.dump t.content.boundary))
      (save (w, e.episodeId)
        { e with transitions := e.transitions ++ [t], pendingBoundary := none } s)
      (.error (.conflict "transition does not close the pending boundary"), s) s := by
  rw [close, Stateful.bind_apply, required_some h, Stateful.andThen_ok, hcurrent]
  simp only [hpending]
  rw [if_neg (not_not.mpr hstatus)]
  exact compare_apply _ _ _ s

theorem close_conflict {w : UUID} {t : TransitionV1} (h : s (w, t.content.episodeId) = some e)
    (hcurrent : e.transitions[t.content.decisionIndex]? = none)
    (hpending : e.status ≠ .open ∨ e.pendingBoundary = none) :
    close w t s = (.error (.conflict "episode has no pending decision"), s) := by
  rw [close, Stateful.bind_apply, required_some h, Stateful.andThen_ok, hcurrent]
  cases hboundary : e.pendingBoundary with
  | none => rfl
  | some pending =>
    simp only
    rw [if_pos (hpending.resolve_right (by simp [hboundary]))]
    rfl

omit [Runtime] in
theorem finalizeComplete_open {w id : UUID} (h : s (w, id) = some e) (hstatus : e.status = .open) :
    finalizeComplete w id s = if { e with status := .complete }.Valid then
        save (w, id) { e with status := .complete } s
      else (.error (.raised (.valueError "validation error for MarlEpisodeV1")), s) := by
  rw [finalizeComplete, Stateful.bind_apply, required_some h, Stateful.andThen_ok, hstatus]
  simp only [MarlEpisodeV1.validate, liftPy, Stateful.bind_apply, Stateful.lift_apply]
  split <;> rfl

omit [Runtime] in
theorem finalizeComplete_final {w id : UUID} (h : s (w, id) = some e) (hstatus : e.status ≠ .open) :
    finalizeComplete w id s
      = (if e.status = .complete then .ok e
        else .error (.conflict "episode is already incomplete"), s) := by
  rw [finalizeComplete, Stateful.bind_apply, required_some h, Stateful.andThen_ok]
  cases hcase : e.status with
  | «open» => exact absurd hcase hstatus
  | complete => rfl
  | incomplete => rfl

omit [Runtime] in
theorem finalizeIncomplete_open {w : UUID} {m : IncompleteMarkerV1}
    (h : s (w, m.content.episodeId) = some e) (hstatus : e.status = .open) :
    finalizeIncomplete w m s
      = if { e with status := .incomplete, incompleteMarker := some m }.Valid then
        save (w, e.episodeId) { e with status := .incomplete, incompleteMarker := some m } s
      else (.error (.raised (.valueError "validation error for MarlEpisodeV1")), s) := by
  rw [finalizeIncomplete, Stateful.bind_apply, required_some h, Stateful.andThen_ok, hstatus]
  simp only [MarlEpisodeV1.validate, liftPy, Stateful.bind_apply, Stateful.lift_apply]
  split <;> rfl

omit [Runtime] in
theorem finalizeIncomplete_final {w : UUID} {m : IncompleteMarkerV1}
    (h : s (w, m.content.episodeId) = some e) (hstatus : e.status ≠ .open) :
    finalizeIncomplete w m s
      = (if e.status = .complete then
          .error (.conflict "complete episode cannot become incomplete")
        else if e.incompleteMarker = some m then .ok e
        else .error (.conflict "incomplete marker conflicts with existing marker"), s) := by
  rw [finalizeIncomplete, Stateful.bind_apply, required_some h, Stateful.andThen_ok]
  cases hcase : e.status with
  | «open» => exact absurd hcase hstatus
  | complete => rfl
  | incomplete =>
    rw [if_neg (show ¬ EpisodeStatus.incomplete = .complete by decide)]
    by_cases hmarker : e.incompleteMarker = some m
    · rw [if_pos hmarker]
      simp only [if_pos hmarker]
      rfl
    · rw [if_neg hmarker]
      simp only [if_neg hmarker]
      rfl

theorem create_rejected (h : ¬ e.Fresh) :
    create e s = (.error (.domain "new episode must be empty and OPEN"), s) := by
  rw [create, if_pos (MarlEpisodeV1.not_fresh_iff.mp h)]
  rfl

theorem create_new (h : e.Fresh) (hkey : s (e.workspaceId, e.episodeId) = none) :
    create e s = save (e.workspaceId, e.episodeId) e s := by
  rw [create, if_neg (MarlEpisodeV1.not_fresh_iff.not.mp (not_not.mpr h))]
  simp only [Stateful.bind_apply, Stateful.read_apply, Stateful.andThen_ok, hkey]

theorem create_current {current : MarlEpisodeV1} (h : e.Fresh)
    (hkey : s (e.workspaceId, e.episodeId) = some current) :
    create e s = branch (sameIdentity current.dump e.dump) (.ok current, s)
      (.error (.conflict "episode identity conflicts with existing content"), s) s := by
  rw [create, if_neg (MarlEpisodeV1.not_fresh_iff.not.mp (not_not.mpr h))]
  simp only [Stateful.bind_apply, Stateful.read_apply, Stateful.andThen_ok, hkey]
  exact compare_apply _ _ _ s

end Calls

end InMemoryMarlTrajectoryStore

/-! ### Valid stores -/

section Valid

open InMemoryMarlTrajectoryStore

variable {s : MarlStore}

omit [Runtime] in
/-- Every stored episode is valid and stored under its own key. -/
def StoreValid (s : MarlStore) : Prop :=
  ∀ w id, ∀ e ∈ s (w, id), e.Valid ∧ e.workspaceId = w ∧ e.episodeId = id

/-- What a call may ask for: a captured boundary belongs to the workspace and session of the
    episode, a closing transition goes on from the pending boundary itself (not from another one
    with the same identity), in the same workspace and session, with a hash of its own.  Only calls
    that are going to be stored are concerned. -/
def Allowed (s : MarlStore) : MarlCall → Prop
  | .capture w b => ∀ e ∈ s (w, b.content.episodeId), e.status = .open → e.pendingBoundary = none →
      b.content.decisionIndex = e.transitions.length → e.InScope b.content.observation
  | .close w t => ∀ e ∈ s (w, t.content.episodeId), ∀ pending ∈ e.pendingBoundary,
      e.status = .open → e.transitions[t.content.decisionIndex]? = none →
        sameIdentity (Hashed.codec.dump pending) (Hashed.codec.dump t.content.boundary) = .ok true →
          pending = t.content.boundary ∧ e.InScope t.content.postObservation
            ∧ t.hash ∉ e.transitions.map (·.hash)
  | _ => True

omit [Runtime] in
theorem StoreValid.save (h : StoreValid s) {w id : UUID} {e : MarlEpisodeV1} (he : e.Valid)
    (hworkspace : e.workspaceId = w) (hid : e.episodeId = id) :
    StoreValid (Function.update s (w, id) (some e)) := by
  intro w' id' e' he'
  by_cases hkey : (w', id') = (w, id)
  · rw [hkey, Function.update_self] at he'
    cases he'
    cases hkey
    exact ⟨he, hworkspace, hid⟩
  · rw [Function.update_of_ne hkey] at he'
    exact h w' id' e' he'

omit [Runtime] in
/-- A comparison that goes on with the same store either way. -/
theorem snd_branch (same : Py Bool) {x y : Except StoreError MarlEpisodeV1 × MarlStore}
    (hx : same = .ok true → StoreValid x.2) (hy : StoreValid y.2) (hs : StoreValid s) :
    StoreValid (branch same x y s).2 := by
  cases same with
  | error e => exact hs
  | ok same =>
    cases same with
    | true => exact hx rfl
    | false => exact hy

omit [Runtime] in
/-- A boundary in scope at the next index can be pending. -/
theorem valid_captured {e : MarlEpisodeV1} {b : DecisionBoundaryV1} (h : e.Valid)
    (hstatus : e.status = .open) (hindex : b.content.decisionIndex = e.transitions.length)
    (hscope : e.InScope b.content.observation) :
    { e with pendingBoundary := some b }.Valid where
  unique := h.unique
  gapless := h.gapless
  episode := h.episode
  scope := h.scope
  pending_scope := by
    intro b' hb'
    cases hb'
    exact hscope
  shape := by
    have hshape := h.shape
    simp only [MarlEpisodeV1.StatusShape, hstatus] at hshape ⊢
    refine ⟨hshape.1, fun b' hb' => ?_⟩
    cases hb'
    exact hindex

omit [Runtime] in
/-- A transition that goes on from the pending boundary can be added. -/
theorem valid_closed {e : MarlEpisodeV1} {t : TransitionV1} (h : e.Valid)
    (hstatus : e.status = .open) (hpending : e.pendingBoundary = some t.content.boundary)
    (hepisode : t.content.episodeId = e.episodeId) (hscope : e.InScope t.content.postObservation)
    (hunique : t.hash ∉ e.transitions.map (·.hash)) :
    { e with transitions := e.transitions ++ [t], pendingBoundary := none }.Valid := by
  have hshape := h.shape
  simp only [MarlEpisodeV1.StatusShape, hstatus] at hshape
  have hindex : t.content.decisionIndex = e.transitions.length := by
    obtain ⟨-, hboundary, -⟩ := t.content.shape
    rw [← hboundary]
    exact hshape.2 _ hpending
  exact
    { unique := by
        rw [List.map_append, List.map_singleton, List.nodup_append_comm]
        exact List.nodup_cons.mpr ⟨hunique, h.unique⟩
      gapless := by
        rw [List.map_append, List.map_singleton, List.length_append, List.length_singleton,
          List.range_succ, h.gapless, hindex]
      episode := by
        intro u hu
        rcases List.mem_append.mp hu with hu | hu
        · exact h.episode u hu
        · rw [List.mem_singleton.mp hu]
          exact hepisode
      scope := by
        intro u hu
        rcases List.mem_append.mp hu with hu | hu
        · exact h.scope u hu
        · rw [List.mem_singleton.mp hu]
          exact ⟨h.pending_scope _ hpending, hscope⟩
      pending_scope := by
        intro b hb
        cases hb
      shape := by
        simp only [MarlEpisodeV1.StatusShape, hstatus]
        refine ⟨hshape.1, fun b hb => ?_⟩
        cases hb }

/-- **Step.**  An allowed call keeps the store valid. -/
theorem storeValid_exec (h : StoreValid s) {call : MarlCall} (hallowed : Allowed s call) :
    StoreValid (exec call s).2 := by
  cases call with
  | create e valid =>
    show StoreValid (create e s).2
    by_cases hfresh : e.Fresh
    · cases hkey : s (e.workspaceId, e.episodeId) with
      | none =>
        rw [create_new hfresh hkey]
        exact h.save valid rfl rfl
      | some current =>
        rw [create_current hfresh hkey]
        exact snd_branch _ (fun _ => h) h h
    · rw [create_rejected hfresh]
      exact h
  | capture w b =>
    show StoreValid (capture w b s).2
    cases hkey : s (w, b.content.episodeId) with
    | none =>
      rw [capture, Stateful.bind_apply, required_none hkey]
      exact h
    | some e =>
      obtain ⟨hvalid, hworkspace, hid⟩ := h _ _ e hkey
      by_cases hstatus : e.status = .open
      · cases hpending : e.pendingBoundary with
        | some pending =>
          rw [capture_pending hkey hstatus hpending]
          exact snd_branch _ (fun _ => h) h h
        | none =>
          rw [capture_next hkey hstatus hpending]
          split
          case isTrue hindex =>
            have hscope := hallowed e hkey hstatus hpending hindex
            exact h.save (valid_captured hvalid hstatus hindex hscope) hworkspace rfl
          case isFalse => exact h
      · rw [capture_finalized hkey hstatus]
        exact h
  | close w t =>
    show StoreValid (close w t s).2
    cases hkey : s (w, t.content.episodeId) with
    | none =>
      rw [close, Stateful.bind_apply, required_none hkey]
      exact h
    | some e =>
      obtain ⟨hvalid, hworkspace, hid⟩ := h _ _ e hkey
      cases hcurrent : e.transitions[t.content.decisionIndex]? with
      | some current =>
        rw [close_closed hkey hcurrent]
        exact snd_branch _ (fun _ => h) h h
      | none =>
        by_cases hstatus : e.status = .open
        · cases hpending : e.pendingBoundary with
          | none =>
            rw [close_conflict hkey hcurrent (.inr hpending)]
            exact h
          | some pending =>
            rw [close_pending hkey hcurrent hstatus hpending]
            refine snd_branch _ (fun hsame => ?_) h h
            obtain ⟨rfl, hscope, hunique⟩ :=
              hallowed e hkey pending hpending hstatus hcurrent hsame
            exact h.save (valid_closed hvalid hstatus hpending hid.symm hscope hunique)
              hworkspace rfl
        · rw [close_conflict hkey hcurrent (.inl hstatus)]
          exact h
  | finalizeComplete w id =>
    show StoreValid (finalizeComplete w id s).2
    cases hkey : s (w, id) with
    | none =>
      rw [finalizeComplete, Stateful.bind_apply, required_none hkey]
      exact h
    | some e =>
      obtain ⟨-, hworkspace, hid⟩ := h _ _ e hkey
      by_cases hstatus : e.status = .open
      · rw [finalizeComplete_open hkey hstatus]
        split
        case isTrue hvalid => exact h.save hvalid hworkspace hid
        case isFalse => exact h
      · rw [finalizeComplete_final hkey hstatus]
        exact h
  | finalizeIncomplete w m =>
    show StoreValid (finalizeIncomplete w m s).2
    cases hkey : s (w, m.content.episodeId) with
    | none =>
      rw [finalizeIncomplete, Stateful.bind_apply, required_none hkey]
      exact h
    | some e =>
      obtain ⟨-, hworkspace, hid⟩ := h _ _ e hkey
      by_cases hstatus : e.status = .open
      · rw [finalizeIncomplete_open hkey hstatus]
        split
        case isTrue hvalid => exact h.save hvalid hworkspace rfl
        case isFalse => exact h
      · rw [finalizeIncomplete_final hkey hstatus]
        exact h

omit [Runtime] in
theorem atomic_save (key : UUID × UUID) (e : MarlEpisodeV1) : Stateful.Atomic (save key e) :=
  Stateful.atomic_write_bind _ fun _ => ⟨e, rfl⟩

omit [Runtime] in
theorem readOnly_required (w id : UUID) : Stateful.ReadOnly (required w id) := by
  refine (Stateful.readOnly_read _).bind fun found => ?_
  cases found with
  | none => exact Stateful.readOnly_raise _
  | some e => exact Stateful.readOnly_pure e

omit [Runtime] in
/-- A comparison raises before anything is written. -/
theorem atomic_compare (same : Py Bool) {x y : Op MarlEpisodeV1} (hx : Stateful.Atomic x)
    (hy : Stateful.Atomic y) : Stateful.Atomic (liftPy same >>= fun b => if b = true then x else y) :=
  (Stateful.readOnly_lift _).bind_atomic fun _ => hx.ite hy

/-- A call that raises has written nothing. -/
theorem atomic_exec (call : MarlCall) : Stateful.Atomic (exec call) := by
  have hpure (e : MarlEpisodeV1) : Stateful.Atomic (pure e : Op MarlEpisodeV1) :=
    (Stateful.readOnly_pure e).atomic
  have hraise (error : StoreError) : Stateful.Atomic (.raise error : Op MarlEpisodeV1) :=
    (Stateful.readOnly_raise error).atomic
  cases call with
  | create e valid =>
    refine (hraise _).ite ((Stateful.readOnly_read _).bind_atomic fun found => ?_)
    cases found with
    | none => exact atomic_save _ _
    | some current => exact atomic_compare _ (hpure _) (hraise _)
  | capture w b =>
    refine (readOnly_required _ _).bind_atomic fun e => (hraise _).ite ?_
    cases e.pendingBoundary with
    | none => exact (hraise _).ite (atomic_save _ _)
    | some pending => exact atomic_compare _ (hpure _) (hraise _)
  | close w t =>
    refine (readOnly_required _ _).bind_atomic fun e => ?_
    cases e.transitions[t.content.decisionIndex]? with
    | some current => exact atomic_compare _ (hpure _) (hraise _)
    | none =>
      cases e.pendingBoundary with
      | none => exact hraise _
      | some pending => exact (hraise _).ite (atomic_compare _ (atomic_save _ _) (hraise _))
  | finalizeComplete w id =>
    refine (readOnly_required _ _).bind_atomic fun e => ?_
    cases e.status with
    | complete => exact hpure _
    | incomplete => exact hraise _
    | «open» => exact (Stateful.readOnly_lift _).bind_atomic fun _ => atomic_save _ _
  | finalizeIncomplete w m =>
    refine (readOnly_required _ _).bind_atomic fun e => ?_
    cases e.status with
    | incomplete => exact (hpure _).ite (hraise _)
    | complete => exact hraise _
    | «open» => exact (Stateful.readOnly_lift _).bind_atomic fun _ => atomic_save _ _

/-- **Valid stores.**  A run of allowed calls leaves every stored episode valid, and no call that
    raises changes the store. -/
theorem store_valid {calls : List MarlCall} (h : Along exec Allowed (fun _ => none) calls) :
    StoreValid (after exec (fun _ => none) calls)
      ∧ ∀ s call error, (exec call s).1 = .error error → (exec call s).2 = s := by
  refine ⟨after_invariant (P := Allowed) (fun _ _ hs hcall => storeValid_exec hs hcall) ?_ h, fun s call => atomic_exec call s⟩
  intro w id e he
  cases he

end Valid

end Store

/-! ### Runs of the sample -/

section Sample

attribute [local instance] canonicalRuntime

open InMemoryMarlTrajectoryStore

def createSample : MarlCall := .create sample.opened sample.valid_opened

theorem exec_createSample :
    (exec createSample fun _ => none).2
      = Function.update (fun _ => none) (sample.workspaceId, sample.episodeId) (some sample.opened) := by
  show (create sample.opened fun _ => none).2 = _
  rw [create_new ⟨rfl, rfl, rfl⟩ rfl]
  rfl

/-- A capture right after the creation, at the first index. -/
theorem exec_captureSample {b : DecisionBoundaryV1} (hepisode : b.content.episodeId = sample.episodeId)
    (hindex : b.content.decisionIndex = 0) :
    (exec (.capture sample.workspaceId b) (exec createSample fun _ => none).2).2
      = Function.update (exec createSample fun _ => none).2 (sample.workspaceId, sample.episodeId)
        (some { sample.opened with pendingBoundary := some b }) := by
  have hkey : (exec createSample fun _ => none).2 (sample.workspaceId, b.content.episodeId)
      = some sample.opened := by
    rw [exec_createSample, hepisode, Function.update_self]
  show (capture sample.workspaceId b _).2 = _
  rw [capture_next hkey rfl rfl,
    if_pos (show b.content.decisionIndex = sample.opened.transitions.length from hindex)]
  rfl

/-- A whole step of an episode. -/
theorem store_valid_sample :
    let calls := [createSample, .capture sample.workspaceId sample.firstBoundary,
      .close sample.workspaceId (sample.firstTransition none)]
    StoreValid (after exec (fun _ => none) calls)
      ∧ ∀ s call error, (exec call s).1 = .error error → (exec call s).2 = s := by
  refine store_valid ⟨trivial, fun e he _ _ _ => ?_, fun e he p hp _ _ _ => ?_, trivial⟩
  · rw [exec_createSample, show sample.firstBoundary.content.episodeId = sample.episodeId from rfl,
      Function.update_self] at he
    cases he
    exact ⟨rfl, rfl⟩
  · rw [exec_captureSample rfl rfl,
      show (sample.firstTransition none).content.episodeId = sample.episodeId from rfl,
      Function.update_self] at he
    cases he
    cases hp
    exact ⟨rfl, ⟨rfl, rfl⟩, List.not_mem_nil⟩

/-- The first boundary of the sample, observed in another workspace. -/
def foreignBoundary : DecisionBoundaryV1 :=
  .sealed (sample.boundary (sample.componentIds 0)
    (.sealed { sample.observation (sample.componentIds 0) 0 0 none with workspaceId := sampleId 8 })
    rfl rfl)

/-- A capture that leaves an invalid episode behind. -/
theorem store_not_valid :
    ∃ e, after exec (fun _ => none) [createSample, .capture sample.workspaceId foreignBoundary]
        (sample.workspaceId, sample.episodeId) = some e
      ∧ ¬ e.Valid := by
  refine ⟨{ sample.opened with pendingBoundary := some foreignBoundary }, ?_, fun hvalid => ?_⟩
  · show (exec _ (exec createSample fun _ => none).2).2 _ = _
    rw [exec_captureSample rfl rfl, Function.update_self]
  obtain ⟨hworkspace, -⟩ := hvalid.pending_scope foreignBoundary rfl
  have hsame : sampleId 8 = sampleId 6 := hworkspace
  exact absurd hsame (by decide +kernel)

end Sample

end Agora.Marl
