import Agora.Mcp.Gateway
import Mathlib.Data.Finset.Card

namespace Agora.Mcp

open GatewayState

/-!
# The invariant of the gateway

An invocation that may still give a result is the one in flight, or its result is remembered already.  All
steps keep this (`perform_ok`), except that an owner must not leave while other tasks may still get a result
from its invocation.
-/

/-! ### The invariant -/

/-- The invocation that a task is the owner of. -/
def Phase.owns : Phase → Option ℕ
  | .waiting true i | .cleaning true i _ => some i
  | .waiting false _ | .cleaning false _ _ | .returned _ | .raised _ => none

/-- An invocation that may still give a result: it runs, or a task waits for the result that it has. -/
def Live (s : GatewayState) (i : ℕ) (inv : Invocation) : Prop :=
  inv.outcome = none ∨ ∃ r, inv.outcome = some (.result r) ∧ resultValid inv.identity r = true
    ∧ ∃ task ∈ s.tasks, ∃ owner, task.phase = .waiting owner i

structure Inv (ops : Finset UUID) (s : GatewayState) : Prop where
  inflight : ∀ op identity i, s.inflight op = some (identity, i) →
    identity.operationId = op ∧ ∃ inv, s.invocations[i]? = some inv ∧ inv.identity = identity
  waits : ∀ task ∈ s.tasks, ∀ owner i, task.phase = .waiting owner i →
    ∃ inv, s.invocations[i]? = some inv ∧ inv.identity = task.identity
  owner : ∀ task ∈ s.tasks, ∀ i, task.phase.owns = some i →
    s.inflight task.operationId = some (task.identity, i)
  unique : ∀ (t u : ℕ) task task', s.tasks[t]? = some task → s.tasks[u]? = some task' →
    task.phase.owns.isSome → task'.phase.owns.isSome → task.operationId = task'.operationId → t = u
  live : ∀ i inv, s.invocations[i]? = some inv → Live s i inv → s.dedup? inv.operationId = none →
    s.inflight inv.operationId = some (inv.identity, i)
  kept : ∀ i inv identity r, s.invocations[i]? = some inv → s.dedup? inv.operationId = some ⟨identity, r⟩ →
    Live s i inv ∨ s.inflight inv.operationId = some (inv.identity, i) →
    inv.identity = identity ∧ inv.outcome = some (.result r)
  returned : ∀ task ∈ s.tasks, ∀ r, task.phase = .returned r →
    s.dedup? task.operationId = some ⟨task.identity, r⟩
  keys : (s.dedup.map DedupEntry.operationId).Nodup
  known : (∀ entry ∈ s.dedup, entry.operationId ∈ ops) ∧ ∀ inv ∈ s.invocations, inv.operationId ∈ ops

/-- What is remembered stays so, and nothing more is started for it. -/
structure Extends (s s' : GatewayState) : Prop where
  kept : ∀ op entry, s.dedup? op = some entry → s'.dedup? op = some entry
  started : ∀ op entry, s.dedup? op = some entry →
    (s'.invocations.map (·.operationId)).count op = (s.invocations.map (·.operationId)).count op

theorem Extends.refl (s : GatewayState) : Extends s s := ⟨fun _ _ h => h, fun _ _ _ => rfl⟩

theorem Extends.trans {s t u : GatewayState} (h : Extends s t) (h' : Extends t u) : Extends s u :=
  ⟨fun op entry hs => h'.kept op entry (h.kept op entry hs),
    fun op entry hs => (h'.started op entry (h.kept op entry hs)).trans (h.started op entry hs)⟩

theorem inv_empty (ops : Finset UUID) : Inv ops GatewayState.empty where
  inflight _ _ _ h := absurd h (Option.some_ne_none _).symm
  waits _ h := absurd h List.not_mem_nil
  owner _ h := absurd h List.not_mem_nil
  unique _ _ _ _ h := absurd h (Option.some_ne_none _).symm
  live _ _ h := absurd h (Option.some_ne_none _).symm
  kept _ _ _ _ h := absurd h (Option.some_ne_none _).symm
  returned _ h := absurd h List.not_mem_nil
  keys := List.nodup_nil
  known := ⟨List.forall_mem_nil _, List.forall_mem_nil _⟩

/-! ### Remembering -/

section Remember

variable {ops : Finset UUID} {s : GatewayState} {identity : MCPCallIdentity} {r : ToolResult}

/-- Nothing has to make room. -/
theorem remember_eq (hops : ops.card < maxDedupEntries) (h : Inv ops s) :
    (s.remember identity r).dedup = keyedSet DedupEntry.operationId s.dedup ⟨identity, r⟩ := by
  have hlength : s.dedup.length ≤ ops.card := by
    have hsub : (s.dedup.map DedupEntry.operationId).toFinset ⊆ ops := by
      intro op hop
      obtain ⟨entry, hentry, rfl⟩ := List.mem_map.mp (List.mem_toFinset.mp hop)
      exact h.known.1 entry hentry
    have hcard := Finset.card_le_card hsub
    rwa [List.toFinset_card_of_nodup h.keys, List.length_map] at hcard
  unfold remember
  simp only [if_neg (Nat.not_le_of_lt (lt_of_le_of_lt hlength hops))]

theorem dedup?_remember (hops : ops.card < maxDedupEntries) (h : Inv ops s) (op : UUID) :
    (s.remember identity r).dedup? op
      = if identity.operationId = op then some ⟨identity, r⟩ else s.dedup? op := by
  unfold dedup?
  rw [remember_eq hops h]
  exact find?_keyedSet

/-- A valid result of an invocation that may still give it, or is in flight. -/
structure Deliverable (s : GatewayState) (i : ℕ) (identity : MCPCallIdentity) (r : ToolResult) : Prop where
  invocation : s.invocations[i]? = some ⟨identity, some (.result r)⟩
  valid : resultValid identity r = true
  current : Live s i ⟨identity, some (.result r)⟩ ∨ s.inflight identity.operationId = some (identity, i)

/-- What is remembered is the same result. -/
theorem Deliverable.prior {i : ℕ} (hd : Deliverable s i identity r) (h : Inv ops s) {entry : DedupEntry}
    (hentry : s.dedup? identity.operationId = some entry) : entry = ⟨identity, r⟩ := by
  obtain ⟨identity', r'⟩ := entry
  obtain ⟨rfl, hsame⟩ := h.kept i _ identity' r' hd.invocation hentry hd.current
  obtain rfl := Outcome.result.inj (Option.some.inj hsame)
  rfl

theorem extends_remember (hops : ops.card < maxDedupEntries) (h : Inv ops s) {i : ℕ}
    (hd : Deliverable s i identity r) : Extends s (s.remember identity r) := by
  refine ⟨fun op entry hentry => ?_, fun _ _ _ => rfl⟩
  rw [dedup?_remember hops h]
  split_ifs with hop
  · subst hop
    rw [hd.prior h hentry]
  · exact hentry

/-- Remembering the result of an invocation. -/
theorem inv_remember (hops : ops.card < maxDedupEntries) (h : Inv ops s) {i : ℕ}
    (hd : Deliverable s i identity r) : Inv ops (s.remember identity r) where
  inflight := h.inflight
  waits := h.waits
  owner := h.owner
  unique := h.unique
  live j inv hinv hlive hnone := by
    rw [dedup?_remember hops h] at hnone
    split_ifs at hnone with hop
    exact h.live j inv hinv hlive hnone
  kept j inv identity' r' hinv hentry hcurrent := by
    rw [dedup?_remember hops h] at hentry
    split_ifs at hentry with hop
    · obtain ⟨rfl, rfl⟩ := DedupEntry.mk.inj (Option.some.inj hentry)
      cases hold : s.dedup? inv.operationId with
      | some entry =>
        have hsame := hd.prior h (hop ▸ hold)
        rw [hsame] at hold
        exact h.kept j inv _ _ hinv hold hcurrent
      | none =>
        -- Both invocations are the one in flight.
        have hj : s.inflight inv.operationId = some (inv.identity, j) := by
          rcases hcurrent with hlive | hin
          · exact h.live j inv hinv hlive hold
          · exact hin
        have hi : s.inflight identity.operationId = some (identity, i) := by
          rcases hd.current with hlive | hin
          · exact h.live i _ hd.invocation hlive (by rw [← hold, ← hop]; rfl)
          · exact hin
        rw [hop, hj] at hi
        obtain ⟨-, rfl⟩ := Prod.mk.inj (Option.some.inj hi)
        obtain rfl := Option.some.inj (hd.invocation.symm.trans hinv)
        exact ⟨rfl, rfl⟩
    · exact h.kept j inv identity' r' hinv hentry hcurrent
  returned task htask r' hphase := (extends_remember hops h hd).kept _ _ (h.returned task htask r' hphase)
  keys := by
    rw [remember_eq hops h]
    exact nodup_keyedSet h.keys _
  known := by
    refine ⟨fun entry hentry => ?_, h.known.2⟩
    rw [remember_eq hops h] at hentry
    rcases mem_keyedSet.mp hentry with rfl | ⟨hentry, -⟩
    · exact h.known.2 _ (List.mem_of_getElem? hd.invocation)
    · exact h.known.1 entry hentry

end Remember

/-! ### Tasks -/

section Tasks

variable {ops : Finset UUID} {s : GatewayState} {identity : MCPCallIdentity} {phase : Phase} {t : ℕ}

/-- What a task may become, when nothing else changes. -/
structure Allowed (s : GatewayState) (t : ℕ) (identity : MCPCallIdentity) (phase : Phase) : Prop where
  waits : ∀ owner i, phase = .waiting owner i →
    s.invocations[i]? = some ⟨identity, none⟩
  owns : ∀ i, phase.owns = some i →
    ∃ old, s.tasks[t]? = some ⟨identity, old⟩ ∧ old.owns = some i
  returned : ∀ r, phase = .returned r → s.dedup? identity.operationId = some ⟨identity, r⟩

theorem inv_tasks (h : Inv ops s) {tasks : List CallTask}
    (htasks : ∀ u task, tasks[u]? = some task → s.tasks[u]? = some task ∨ u = t ∧ task = ⟨identity, phase⟩)
    (hnew : Allowed s t identity phase) : Inv ops { s with tasks } := by
  have hmem {task : CallTask} (htask : task ∈ tasks) : task ∈ s.tasks ∨ task = ⟨identity, phase⟩ := by
    obtain ⟨u, hu⟩ := List.mem_iff_getElem?.mp htask
    rcases htasks u task hu with hold | ⟨-, heq⟩
    · exact .inl (List.mem_of_getElem? hold)
    · exact .inr heq
  -- A task that owns has owned before, under the same number.
  have howns {u : ℕ} {task : CallTask} (hu : tasks[u]? = some task) {i : ℕ}
      (hi : task.phase.owns = some i) :
      ∃ old, s.tasks[u]? = some ⟨task.identity, old⟩ ∧ old.owns = some i := by
    rcases htasks u task hu with hold | ⟨rfl, rfl⟩
    · exact ⟨task.phase, hold, hi⟩
    · exact hnew.owns i hi
  have hlive {i : ℕ} {inv : Invocation} (hinv : s.invocations[i]? = some inv)
      (hlive : Live { s with tasks } i inv) : Live s i inv := by
    rcases hlive with hnone | ⟨r, hr, hvalid, task, htask, owner, hphase⟩
    · exact .inl hnone
    · rcases hmem htask with hold | rfl
      · exact .inr ⟨r, hr, hvalid, task, hold, owner, hphase⟩
      · have hnone := hnew.waits owner i hphase
        rw [hinv] at hnone
        rw [Option.some.inj hnone] at hr
        cases hr
  refine ⟨h.inflight, fun task htask owner i hphase => ?_, fun task htask i hi => ?_,
    fun u v task task' hu hv ho ho' hsame => ?_, fun i inv hinv hl => h.live i inv hinv (hlive hinv hl),
    fun i inv identity' r hinv hentry hcurrent => ?_, fun task htask r hphase => ?_, h.keys, h.known⟩
  · rcases hmem htask with hold | rfl
    · exact h.waits task hold owner i hphase
    · exact ⟨_, hnew.waits owner i hphase, rfl⟩
  · obtain ⟨u, hu⟩ := List.mem_iff_getElem?.mp htask
    obtain ⟨old, hold, hi'⟩ := howns hu hi
    exact h.owner ⟨task.identity, old⟩ (List.mem_of_getElem? hold) i hi'
  · obtain ⟨i, hi⟩ := Option.isSome_iff_exists.mp ho
    obtain ⟨j, hj⟩ := Option.isSome_iff_exists.mp ho'
    obtain ⟨old, hold, hi'⟩ := howns hu hi
    obtain ⟨old', hold', hj'⟩ := howns hv hj
    exact h.unique u v _ _ hold hold' (Option.isSome_iff_exists.mpr ⟨i, hi'⟩)
      (Option.isSome_iff_exists.mpr ⟨j, hj'⟩) hsame
  · exact h.kept i inv identity' r hinv hentry (hcurrent.imp_left (hlive hinv))
  · rcases hmem htask with hold | rfl
    · exact h.returned task hold r hphase
    · exact hnew.returned r hphase

theorem inv_withTask (h : Inv ops s) (hnew : Allowed s s.tasks.length identity phase) :
    Inv ops (s.withTask ⟨identity, phase⟩) := by
  refine inv_tasks h (fun u task hu => ?_) hnew
  rw [List.getElem?_append] at hu
  split_ifs at hu with hlt
  · exact .inl hu
  · obtain ⟨hbound, heq⟩ := List.getElem?_eq_some_iff.mp hu
    rw [List.length_singleton] at hbound
    exact .inr ⟨by omega, (List.getElem_singleton _ ▸ heq).symm⟩

theorem inv_setPhase (h : Inv ops s) (hnew : Allowed s t identity phase) :
    Inv ops (s.setPhase t identity phase) := by
  refine inv_tasks h (fun u task hu => ?_) hnew
  rw [List.getElem?_set] at hu
  split_ifs at hu with htu hlt
  · exact .inr ⟨htu.symm, (Option.some.inj hu).symm⟩
  · exact .inl hu

/-- An owner takes its entry away once its invocation can give no other result. -/
theorem inv_pop (h : Inv ops s) {owner : Bool} {op : UUID}
    (howns : owner = true → ∀ task ∈ s.tasks, task.operationId = op → task.phase.owns = none)
    (hlive : owner = true → s.dedup? op = none → ∀ i inv, s.invocations[i]? = some inv → inv.operationId = op →
      ¬ Live s i inv) :
    Inv ops (s.pop owner op) := by
  cases owner with
  | false => exact h
  | true =>
    refine ⟨fun k identity i hk => ?_, h.waits, fun task htask i hi => ?_, h.unique,
      fun i inv hinv hl hnone => ?_, fun i inv identity r hinv hentry hcurrent => ?_, h.returned, h.keys,
      h.known⟩
    · change (if k = op then none else s.inflight k) = _ at hk
      split_ifs at hk
      exact h.inflight k identity i hk
    · show (if task.operationId = op then none else s.inflight task.operationId) = _
      rw [if_neg]
      · exact h.owner task htask i hi
      · intro hop
        rw [howns rfl task htask hop] at hi
        cases hi
    · show (if inv.operationId = op then none else s.inflight inv.operationId) = _
      rw [if_neg]
      · exact h.live i inv hinv hl hnone
      · intro hop
        exact hlive rfl (hop ▸ hnone) i inv hinv hop hl
    · refine h.kept i inv identity r hinv hentry (hcurrent.imp_right fun hin => ?_)
      change (if inv.operationId = op then none else s.inflight inv.operationId) = _ at hin
      split_ifs at hin
      exact hin

/-- The end of a task, which takes the entry away if it is the owner. -/
theorem inv_leave (h : Inv ops s) {owner : Bool} {old : Phase} (ht : s.tasks[t]? = some ⟨identity, old⟩)
    (hold : owner = true → old.owns.isSome) (hwaits : ∀ o i, phase ≠ .waiting o i) (howns : phase.owns = none)
    (hreturned : ∀ r, phase = .returned r → s.dedup? identity.operationId = some ⟨identity, r⟩)
    (hlive : owner = true → s.dedup? identity.operationId = none → ∀ i inv, old.owns = some i →
      s.invocations[i]? = some inv → ¬ Live (s.setPhase t identity phase) i inv) :
    Inv ops ((s.pop owner identity.operationId).setPhase t identity phase) := by
  have hnew : Allowed s t identity phase := by
    refine ⟨fun o i hphase => absurd hphase (hwaits o i), fun i hi => ?_, hreturned⟩
    rw [howns] at hi
    cases hi
  have hset := inv_setPhase h hnew
  have hcomm : (s.pop owner identity.operationId).setPhase t identity phase
      = (s.setPhase t identity phase).pop owner identity.operationId := by
    cases owner <;> rfl
  rw [hcomm]
  refine inv_pop hset (fun howner task htask hop => ?_) fun howner hnone j inv hinv hop hl => ?_
  · by_contra hne
    obtain ⟨u, hu⟩ := List.mem_iff_getElem?.mp htask
    change (s.tasks.set t ⟨identity, phase⟩)[u]? = some task at hu
    rw [List.getElem?_set] at hu
    split_ifs at hu with htu hlt
    · obtain rfl := Option.some.inj hu
      exact hne howns
    · exact htu (h.unique t u _ _ ht hu (hold howner) (Option.isSome_iff_ne_none.mpr hne) hop.symm)
  · obtain ⟨i, hi⟩ := Option.isSome_iff_exists.mp (hold howner)
    have hin := h.owner _ (List.mem_of_getElem? ht) i hi
    have hj := hset.live j inv hinv hl (hop ▸ hnone)
    rw [hop] at hj
    obtain ⟨-, rfl⟩ := Prod.mk.inj (Option.some.inj (hin.symm.trans hj))
    exact hlive howner hnone i inv hi hinv hl

end Tasks

/-! ### Invocations -/

section Invocations

variable {ops : Finset UUID} {s : GatewayState} {identity : MCPCallIdentity}

theorem inv_start (h : Inv ops s) (hknown : identity.operationId ∈ ops)
    (hfree : s.inflight identity.operationId = none) (hnone : s.dedup? identity.operationId = none) :
    Inv ops ((s.start identity).withTask ⟨identity, .waiting true s.invocations.length⟩) := by
  let s' := (s.start identity).withTask ⟨identity, .waiting true s.invocations.length⟩
  have hinvocation {i : ℕ} {inv : Invocation} (hi : s'.invocations[i]? = some inv) :
      s.invocations[i]? = some inv ∨ i = s.invocations.length ∧ inv = ⟨identity, none⟩ := by
    change (s.invocations ++ [⟨identity, none⟩])[i]? = some inv at hi
    rw [List.getElem?_append] at hi
    split_ifs at hi with hlt
    · exact .inl hi
    · obtain ⟨hbound, heq⟩ := List.getElem?_eq_some_iff.mp hi
      rw [List.length_singleton] at hbound
      exact .inr ⟨by omega, (List.getElem_singleton _ ▸ heq).symm⟩
  have hold {i : ℕ} {inv : Invocation} (hi : s.invocations[i]? = some inv) :
      s'.invocations[i]? = some inv := by
    show (s.invocations ++ [⟨identity, none⟩])[i]? = some inv
    rw [List.getElem?_append_left (List.getElem?_eq_some_iff.mp hi).1]
    exact hi
  have hlast : s'.invocations[s.invocations.length]? = some ⟨identity, none⟩ := List.getElem?_concat_length
  have htask {task : CallTask} (ht : task ∈ s'.tasks) :
      task ∈ s.tasks ∨ task = ⟨identity, .waiting true s.invocations.length⟩ := by
    rcases List.mem_append.mp ht with ht | ht
    · exact .inl ht
    · exact .inr (List.mem_singleton.mp ht)
  have hindex {u : ℕ} {task : CallTask} (hu : s'.tasks[u]? = some task) :
      s.tasks[u]? = some task ∨ u = s.tasks.length := by
    change (s.tasks ++ [_])[u]? = some task at hu
    rw [List.getElem?_append] at hu
    split_ifs at hu with hlt
    · exact .inl hu
    · obtain ⟨hbound, -⟩ := List.getElem?_eq_some_iff.mp hu
      rw [List.length_singleton] at hbound
      exact .inr (by omega)
  have hsame {op : UUID} (hne : op ≠ identity.operationId) : s'.inflight op = s.inflight op := if_neg hne
  have hlive {i : ℕ} {inv : Invocation} (hi : s.invocations[i]? = some inv) (hl : Live s' i inv) :
      Live s i inv := by
    rcases hl with hnone | ⟨r, hr, hvalid, task, ht, owner, hphase⟩
    · exact .inl hnone
    · rcases htask ht with ht | rfl
      · exact .inr ⟨r, hr, hvalid, task, ht, owner, hphase⟩
      · obtain ⟨-, rfl⟩ := Phase.waiting.inj hphase
        exact absurd (List.getElem?_eq_some_iff.mp hi).1 (Nat.lt_irrefl _)
  -- An owner of the same operation id would have it in flight.
  have hother {task : CallTask} (ht : task ∈ s.tasks) (ho : task.phase.owns.isSome) :
      task.operationId ≠ identity.operationId := by
    intro hop
    obtain ⟨i, hi⟩ := Option.isSome_iff_exists.mp ho
    have hin := h.owner task ht i hi
    rw [hop, hfree] at hin
    cases hin
  refine ⟨fun op identity' i hi => ?_, fun task ht owner i hphase => ?_, fun task ht i hi => ?_,
    fun t u task task' ht hu ho ho' hop => ?_, fun i inv hi hl hno => ?_,
    fun i inv identity' r hi hentry hcurrent => ?_, fun task ht r hphase => ?_, h.keys, h.known.1,
    fun inv hinv => ?_⟩
  · by_cases hop : op = identity.operationId
    · obtain ⟨rfl, rfl⟩ := Prod.mk.inj (Option.some.inj ((if_pos hop).symm.trans hi))
      exact ⟨hop.symm, _, hlast, rfl⟩
    · rw [hsame hop] at hi
      obtain ⟨hsame', inv, hinv, heq⟩ := h.inflight op identity' i hi
      exact ⟨hsame', inv, hold hinv, heq⟩
  · rcases htask ht with ht | rfl
    · obtain ⟨inv, hinv, heq⟩ := h.waits task ht owner i hphase
      exact ⟨inv, hold hinv, heq⟩
    · obtain ⟨-, rfl⟩ := Phase.waiting.inj hphase
      exact ⟨_, hlast, rfl⟩
  · rcases htask ht with ht | rfl
    · rw [hsame (hother ht (Option.isSome_iff_exists.mpr ⟨i, hi⟩))]
      exact h.owner task ht i hi
    · obtain rfl := Option.some.inj hi
      exact if_pos rfl
  · rcases hindex ht with ht' | rfl
    · rcases hindex hu with hu' | rfl
      · exact h.unique t u task task' ht' hu' ho ho' hop
      · obtain rfl := Option.some.inj (List.getElem?_concat_length.symm.trans hu)
        exact absurd hop (hother (List.mem_of_getElem? ht') ho)
    · rcases hindex hu with hu' | rfl
      · obtain rfl := Option.some.inj (List.getElem?_concat_length.symm.trans ht)
        exact absurd hop.symm (hother (List.mem_of_getElem? hu') ho')
      · rfl
  · rcases hinvocation hi with hi' | ⟨rfl, rfl⟩
    · have hin := h.live i inv hi' (hlive hi' hl) hno
      rw [hsame]
      · exact hin
      · intro hop
        rw [hop, hfree] at hin
        cases hin
    · exact if_pos rfl
  · rcases hinvocation hi with hi' | ⟨rfl, rfl⟩
    · refine h.kept i inv identity' r hi' hentry (hcurrent.imp (hlive hi') fun hin => ?_)
      rwa [hsame] at hin
      intro hop
      have hentry' : s.dedup? inv.operationId = some ⟨identity', r⟩ := hentry
      rw [hop, hnone] at hentry'
      cases hentry'
    · have hentry' : s.dedup? identity.operationId = some ⟨identity', r⟩ := hentry
      rw [hnone] at hentry'
      cases hentry'
  · rcases htask ht with ht | rfl
    · exact h.returned task ht r hphase
    · cases hphase
  · rcases List.mem_append.mp hinv with hinv | hinv
    · exact h.known.2 inv hinv
    · obtain rfl := List.mem_singleton.mp hinv
      exact hknown

theorem extends_start (hnone : s.dedup? identity.operationId = none) (task : CallTask) :
    Extends s ((s.start identity).withTask task) := by
  refine ⟨fun _ _ h => h, fun op entry hentry => ?_⟩
  show ((s.invocations ++ [Invocation.mk identity none]).map Invocation.operationId).count op = _
  rw [List.map_append, List.count_append, List.map_singleton, List.count_singleton, if_neg]
  · rfl
  · intro hop
    rw [← eq_of_beq hop] at hentry
    exact absurd (hnone.symm.trans hentry) (Option.some_ne_none _).symm

/-- An invocation after it has ended. -/
theorem getElem?_finish {i j : ℕ} {outcome : Outcome} {inv' : Invocation}
    (hj : (s.finish i outcome).invocations[j]? = some inv') :
    ∃ inv, s.invocations[j]? = some inv ∧ inv'.identity = inv.identity
      ∧ (inv.outcome = none ∨ inv' = inv) := by
  change (s.invocations.modify i _)[j]? = some inv' at hj
  rw [List.getElem?_modify] at hj
  obtain ⟨inv, hinv, heq⟩ := Option.map_eq_some_iff.mp hj
  refine ⟨inv, hinv, ?_⟩
  by_cases hij : i = j
  · rw [if_pos hij] at heq
    subst heq
    refine ⟨rfl, ?_⟩
    cases ho : inv.outcome with
    | none => exact .inl rfl
    | some o => exact .inr (by cases inv; cases ho; rfl)
  · rw [if_neg hij] at heq
    exact ⟨heq ▸ rfl, .inr heq.symm⟩

theorem map_finish {β : Type} (f : MCPCallIdentity → β) (i : ℕ) (outcome : Outcome) :
    (s.finish i outcome).invocations.map (fun inv => f inv.identity) = s.invocations.map fun inv => f inv.identity := by
  refine List.ext_getElem? fun j => ?_
  show ((s.invocations.modify i _).map _)[j]? = _
  rw [List.getElem?_map, List.getElem?_map, List.getElem?_modify]
  cases s.invocations[j]? with
  | none => rfl
  | some inv => by_cases hij : i = j <;> simp [hij]

theorem exists_finish {i j : ℕ} {outcome : Outcome} {inv : Invocation} (hj : s.invocations[j]? = some inv) :
    ∃ inv', (s.finish i outcome).invocations[j]? = some inv' ∧ inv'.identity = inv.identity := by
  have hmap := congrArg (·[j]?) (map_finish (s := s) id i outcome)
  simp only [List.getElem?_map, hj, Option.map_some, id] at hmap
  obtain ⟨inv', hinv', heq⟩ := Option.map_eq_some_iff.mp hmap
  exact ⟨inv', hinv', heq⟩

theorem inv_finish (h : Inv ops s) (i : ℕ) (outcome : Outcome) : Inv ops (s.finish i outcome) := by
  have hlive {j : ℕ} {inv inv' : Invocation} (hended : inv.outcome = none ∨ inv' = inv)
      (hl : Live (s.finish i outcome) j inv') : Live s j inv := by
    rcases hended with hnone | rfl
    · exact .inl hnone
    · exact hl
  refine ⟨fun op identity j hj => ?_, fun task ht owner j hphase => ?_, h.owner, h.unique,
    fun j inv' hj hl hno => ?_, fun j inv' identity r hj hentry hcurrent => ?_, h.returned, h.keys, h.known.1,
    fun inv' hinv' => ?_⟩
  · obtain ⟨hop, inv, hinv, heq⟩ := h.inflight op identity j hj
    obtain ⟨inv', hinv', hsame⟩ := @exists_finish _ i _ outcome _ hinv
    exact ⟨hop, inv', hinv', hsame.trans heq⟩
  · obtain ⟨inv, hinv, heq⟩ := h.waits task ht owner j hphase
    obtain ⟨inv', hinv', hsame⟩ := @exists_finish _ i _ outcome _ hinv
    exact ⟨inv', hinv', hsame.trans heq⟩
  · obtain ⟨inv, hinv, hsame, hended⟩ := getElem?_finish hj
    rw [Invocation.operationId, hsame] at hno ⊢
    exact h.live j inv hinv (hlive hended hl) hno
  · obtain ⟨inv, hinv, hsame, hended⟩ := getElem?_finish hj
    rw [Invocation.operationId, hsame] at hentry hcurrent
    obtain ⟨heq, hresult⟩ := h.kept j inv identity r hinv hentry (hcurrent.imp_left (hlive hended))
    rcases hended with hnone | rfl
    · rw [hnone] at hresult
      cases hresult
    · exact ⟨heq, hresult⟩
  · obtain ⟨j, hj⟩ := List.mem_iff_getElem?.mp hinv'
    obtain ⟨inv, hinv, hsame, -⟩ := getElem?_finish hj
    rw [Invocation.operationId, hsame]
    exact h.known.2 inv (List.mem_of_getElem? hinv)

theorem extends_finish (i : ℕ) (outcome : Outcome) : Extends s (s.finish i outcome) := by
  refine ⟨fun _ _ h => h, fun op _ _ => ?_⟩
  exact congrArg (List.count op) (map_finish MCPCallIdentity.operationId i outcome)

end Invocations

/-! ### Steps -/

/-- The invocation has ended, and no task waits for a valid result of it that is not remembered. -/
def Settled (s : GatewayState) (i : ℕ) : Prop := ∀ inv, s.invocations[i]? = some inv →
  ∃ outcome, inv.outcome = some outcome ∧ ∀ r, outcome = .result r → resultValid inv.identity r = true →
    s.dedup? inv.operationId ≠ none ∨ ∀ task ∈ s.tasks, ∀ owner, task.phase ≠ .waiting owner i

/-- The condition: an owner that was cancelled, or has given up, leaves when its invocation is settled. -/
def Orderly (s : GatewayState) : GatewayStep → Prop
  | .cancel t | .cleaned t => ∀ identity i error,
    s.tasks[t]? = some ⟨identity, .cleaning true i error⟩ → Settled s i
  | .enter _ | .finish _ _ | .wake _ => True

/-- Calls are made with these operation ids. -/
def Known (ops : Finset UUID) : GatewayStep → Prop
  | .enter r => r.call.operationId ∈ ops
  | .finish _ _ | .wake _ | .cancel _ | .cleaned _ => True

section Steps

variable {config : Config} {ops : Finset UUID} {s : GatewayState} {identity : MCPCallIdentity} {t i : ℕ}
  {owner : Bool} {r : ToolResult}

theorem outcome?_eq_some {outcome : Outcome} :
    s.outcome? i = some outcome ↔ ∃ inv, s.invocations[i]? = some inv ∧ inv.outcome = some outcome := by
  unfold outcome?
  exact Option.bind_eq_some_iff

theorem resume_valid (hvalid : resultValid identity r = true) : s.resume identity owner i (.result r)
    = ((s.pop owner identity.operationId).remember identity r, .returned r) := if_pos hvalid

theorem resume_invalid (hvalid : ¬ resultValid identity r = true) :
    s.resume identity owner i (.result r) = (s.pop owner identity.operationId,
      .raised (failure .resultInvalid identity "upstream result identity failed")) := if_neg hvalid

/-- The state after a valid result is that of an owner who leaves. -/
theorem pop_remember_setPhase (owner : Bool) (op : UUID) (phase : Phase) :
    ((s.pop owner op).remember identity r).setPhase t identity phase
      = ((s.remember identity r).pop owner op).setPhase t identity phase := by
  cases owner <;> rfl

/-- The results that a task waits for. -/
theorem deliverable_of_waiting (h : Inv ops s) (ht : s.tasks[t]? = some ⟨identity, .waiting owner i⟩)
    (hi : s.outcome? i = some (.result r)) (hvalid : resultValid identity r = true) :
    Deliverable s i identity r := by
  obtain ⟨inv, hinv, houtcome⟩ := outcome?_eq_some.mp hi
  obtain ⟨inv', hinv', hsame⟩ := h.waits _ (List.mem_of_getElem? ht) owner i rfl
  obtain rfl := Option.some.inj (hinv.symm.trans hinv')
  obtain ⟨identity', outcome⟩ := inv
  obtain rfl : identity' = identity := hsame
  obtain rfl : outcome = some (.result r) := houtcome
  exact ⟨hinv, hvalid, .inl (.inr ⟨r, rfl, hvalid, _, List.mem_of_getElem? ht, owner, rfl⟩)⟩

theorem owns_waiting (owner : Bool) (i : ℕ) :
    (Phase.waiting owner i).owns = if owner then some i else none := by
  cases owner <;> rfl

theorem owns_cleaning (owner : Bool) (i : ℕ) (error : GatewayError) :
    (Phase.cleaning owner i error).owns = if owner then some i else none := by
  cases owner <;> rfl

/-- A task that leaves without a result. -/
theorem inv_leave_raised (h : Inv ops s) {old : Phase} (ht : s.tasks[t]? = some ⟨identity, old⟩)
    (hold : old.owns = if owner then some i else none) (error : GatewayError)
    (hlive : owner = true → s.dedup? identity.operationId = none → ∀ inv, s.invocations[i]? = some inv →
      ¬ Live (s.setPhase t identity (.raised error)) i inv) :
    Inv ops ((s.pop owner identity.operationId).setPhase t identity (.raised error)) := by
  refine inv_leave h ht (fun howner => ?_) nofun rfl nofun fun howner hnone j inv hj hinv => ?_
  · rw [hold, if_pos howner]
    rfl
  · rw [hold, if_pos howner] at hj
    obtain rfl := Option.some.inj hj
    exact hlive howner hnone inv hinv

/-- An owner that leaves when its invocation is settled. -/
theorem not_live_of_settled (h : Settled s i) {inv : Invocation} (hinv : s.invocations[i]? = some inv)
    (hnone : s.dedup? inv.operationId = none) (error : GatewayError) :
    ¬ Live (s.setPhase t identity (.raised error)) i inv := by
  obtain ⟨outcome, houtcome, hwaiting⟩ := h inv hinv
  rintro (hno | ⟨r, hr, hvalid, task, htask, o, hphase⟩)
  · rw [hno] at houtcome
    cases houtcome
  · obtain rfl := Option.some.inj (houtcome.symm.trans hr)
    rcases hwaiting r rfl hvalid with hkept | hnobody
    · exact hkept hnone
    · rcases List.mem_or_eq_of_mem_set htask with hold | rfl
      · exact hnobody task hold o hphase
      · cases hphase

theorem extends_setPhase (phase : Phase) : Extends s (s.setPhase t identity phase) :=
  ⟨fun _ _ h => h, fun _ _ _ => rfl⟩

theorem extends_pop (owner : Bool) (op : UUID) : Extends s (s.pop owner op) := by
  cases owner with
  | false => exact Extends.refl s
  | true => exact ⟨fun _ _ h => h, fun _ _ _ => rfl⟩

/-- Going on with an outcome, in a task that has waited for it. -/
theorem wake_ok (hops : ops.card < maxDedupEntries) (h : Inv ops s) {outcome : Outcome}
    (ht : s.tasks[t]? = some ⟨identity, .waiting owner i⟩) (hi : s.outcome? i = some outcome) :
    Inv ops ((s.resume identity owner i outcome).1.setPhase t identity (s.resume identity owner i outcome).2)
      ∧ Extends s
        ((s.resume identity owner i outcome).1.setPhase t identity (s.resume identity owner i outcome).2) := by
  obtain ⟨inv, hinv, houtcome⟩ := outcome?_eq_some.mp hi
  obtain ⟨inv', hinv', hsame⟩ := h.waits _ (List.mem_of_getElem? ht) owner i rfl
  obtain rfl := Option.some.inj (hinv.symm.trans hinv')
  -- Without a valid result the invocation is not live.
  have hdead (hno : ∀ r, outcome = .result r → ¬ resultValid identity r = true) (u : GatewayState) :
      ∀ inv', s.invocations[i]? = some inv' → ¬ Live u i inv' := by
    rintro inv' hinv' (hnone | ⟨r, hr, hvalid, -⟩)
    · obtain rfl := Option.some.inj (hinv.symm.trans hinv')
      rw [hnone] at houtcome
      cases houtcome
    · obtain rfl := Option.some.inj (hinv.symm.trans hinv')
      rw [hsame] at hvalid
      exact hno r (Option.some.inj (houtcome.symm.trans hr)) hvalid
  have hcleaning (error : GatewayError) : Allowed s t identity (.cleaning owner i error) := by
    refine ⟨nofun, fun j hj => ⟨_, ht, ?_⟩, nofun⟩
    rw [owns_cleaning] at hj
    rw [owns_waiting]
    exact hj
  cases outcome with
  | result r =>
    by_cases hvalid : resultValid identity r = true
    · have hd := deliverable_of_waiting h ht hi hvalid
      have hkept : (s.remember identity r).dedup? identity.operationId = some ⟨identity, r⟩ := by
        rw [dedup?_remember hops h, if_pos rfl]
      rw [resume_valid hvalid, pop_remember_setPhase]
      refine ⟨inv_leave (inv_remember hops h hd) ht (fun howner => ?_) nofun rfl (fun r' hr' => ?_)
        fun _ hnone => ?_, ?_⟩
      · rw [howner]
        rfl
      · obtain rfl := Phase.returned.inj hr'
        exact hkept
      · rw [hkept] at hnone
        cases hnone
      · exact (extends_remember hops h hd).trans ((extends_pop owner _).trans (extends_setPhase _))
    · rw [resume_invalid hvalid]
      refine ⟨inv_leave_raised h ht (owns_waiting owner i) _ fun _ _ => hdead ?_ _,
        (extends_pop owner _).trans (extends_setPhase _)⟩
      intro r' hr'
      obtain rfl := Outcome.result.inj hr'
      exact hvalid
  | failed error =>
    exact ⟨inv_leave_raised h ht (owns_waiting owner i) _ fun _ _ => hdead nofun _,
      (extends_pop owner _).trans (extends_setPhase _)⟩
  | timedOut => exact ⟨inv_setPhase h (hcleaning _), extends_setPhase _⟩
  | cancelled =>
    cases owner with
    | true => exact ⟨inv_setPhase h (hcleaning _), extends_setPhase _⟩
    | false => exact ⟨inv_setPhase h ⟨nofun, nofun, nofun⟩, extends_setPhase _⟩

/-- A call that does not wait. -/
theorem allowed_ended {phase : Phase} (hwaits : ∀ o j, phase ≠ .waiting o j) (howns : phase.owns = none)
    (hreturned : ∀ r, phase = .returned r → s.dedup? identity.operationId = some ⟨identity, r⟩) :
    Allowed s t identity phase := by
  refine ⟨fun o j hphase => absurd hphase (hwaits o j), fun j hj => ?_, hreturned⟩
  rw [howns] at hj
  cases hj

theorem extends_withTask (task : CallTask) : Extends s (s.withTask task) :=
  ⟨fun _ _ h => h, fun _ _ _ => rfl⟩

/-- Going on with an outcome that is there already. -/
theorem join_ok (hops : ops.card < maxDedupEntries) (h : Inv ops s) {outcome : Outcome}
    (hin : s.inflight identity.operationId = some (identity, i)) (hi : s.outcome? i = some outcome) :
    Inv ops ((s.resume identity false i outcome).1.withTask ⟨identity, (s.resume identity false i outcome).2⟩)
      ∧ Extends s
        ((s.resume identity false i outcome).1.withTask ⟨identity, (s.resume identity false i outcome).2⟩) := by
  have hraised (error : GatewayError) : Inv ops (s.withTask ⟨identity, .raised error⟩)
      ∧ Extends s (s.withTask ⟨identity, .raised error⟩) :=
    ⟨inv_withTask h (allowed_ended nofun rfl nofun), extends_withTask _⟩
  cases outcome with
  | result r =>
    by_cases hvalid : resultValid identity r = true
    · obtain ⟨inv, hinv, houtcome⟩ := outcome?_eq_some.mp hi
      obtain ⟨-, inv', hinv', hsame⟩ := h.inflight _ _ _ hin
      obtain rfl := Option.some.inj (hinv.symm.trans hinv')
      obtain ⟨identity', outcome⟩ := inv
      obtain rfl : identity' = identity := hsame
      obtain rfl : outcome = some (.result r) := houtcome
      have hd : Deliverable s i identity' r := ⟨hinv, hvalid, .inr hin⟩
      rw [resume_valid hvalid]
      refine ⟨inv_withTask (inv_remember hops h hd) (allowed_ended nofun rfl fun r' hr' => ?_),
        (extends_remember hops h hd).trans (extends_withTask _)⟩
      obtain rfl := Phase.returned.inj hr'
      show (s.remember identity' r).dedup? identity'.operationId = _
      rw [dedup?_remember hops h, if_pos rfl]
    · rw [resume_invalid hvalid]
      exact hraised _
  | failed error => exact hraised error
  | timedOut => exact ⟨inv_withTask h (allowed_ended nofun rfl nofun), extends_withTask _⟩
  | cancelled => exact hraised _

theorem enter_ok (hops : ops.card < maxDedupEntries) (h : Inv ops s) {request : Request}
    (hknown : request.call.operationId ∈ ops) :
    Inv ops (s.enter config request) ∧ Extends s (s.enter config request) := by
  have hraised (identity : MCPCallIdentity) (error : GatewayError) :
      Inv ops (s.withTask ⟨identity, .raised error⟩) ∧ Extends s (s.withTask ⟨identity, .raised error⟩) :=
    ⟨inv_withTask h (allowed_ended nofun rfl nofun), extends_withTask _⟩
  unfold enter reserve
  cases guards config request with
  | error e => exact hraised _ e
  | ok u =>
    simp only
    cases hprior : s.dedup? request.call.operationId with
    | some prior =>
      simp only
      split_ifs with hsame
      · refine ⟨inv_withTask h (allowed_ended nofun rfl fun r hr => ?_), extends_withTask _⟩
        obtain rfl := Phase.returned.inj hr
        show s.dedup? request.call.operationId = some ⟨request.call.toMCPCallIdentity, prior.result⟩
        rw [hprior, ← hsame]
      · exact hraised _ _
    | none =>
      cases hin : s.inflight request.call.operationId with
      | none => exact ⟨inv_start h hknown hin hprior, extends_start hprior _⟩
      | some entry =>
        obtain ⟨identity', i⟩ := entry
        simp only
        split_ifs with hsame
        · subst hsame
          cases hi : s.outcome? i with
          | some outcome => exact join_ok hops h hin hi
          | none =>
            refine ⟨inv_withTask h ⟨fun o j hphase => ?_, nofun, nofun⟩, extends_withTask _⟩
            obtain ⟨rfl, rfl⟩ := Phase.waiting.inj hphase
            obtain ⟨-, inv, hinv, heq⟩ := h.inflight _ _ _ hin
            obtain ⟨identity', outcome⟩ := inv
            obtain rfl : identity' = _ := heq
            cases outcome with
            | none => exact hinv
            | some outcome =>
              rw [outcome?_eq_some.mpr ⟨_, hinv, rfl⟩] at hi
              cases hi
        · exact hraised _ _

/-- **Steps.**  They keep the invariant and what is remembered. -/
theorem perform_ok (hops : ops.card < maxDedupEntries) (h : Inv ops s) {step : GatewayStep}
    (hknown : Known ops step) (horderly : Orderly s step) :
    Inv ops (perform config step s).2 ∧ Extends s (perform config step s).2 := by
  have hsettled {identity : MCPCallIdentity} {owner : Bool} {i : ℕ} {error error' : GatewayError} {t : ℕ}
      (ht : s.tasks[t]? = some ⟨identity, .cleaning owner i error⟩)
      (hset : ∀ identity i error, s.tasks[t]? = some ⟨identity, .cleaning true i error⟩ → Settled s i) :
      Inv ops ((s.pop owner identity.operationId).setPhase t identity (.raised error'))
        ∧ Extends s ((s.pop owner identity.operationId).setPhase t identity (.raised error')) := by
    refine ⟨inv_leave_raised h ht (owns_cleaning owner i error) _ fun howner hnone inv hinv => ?_,
      (extends_pop owner _).trans (extends_setPhase _)⟩
    subst howner
    have hin := h.owner _ (List.mem_of_getElem? ht) i rfl
    obtain ⟨-, inv', hinv', hsame⟩ := h.inflight _ _ _ hin
    obtain rfl := Option.some.inj (hinv.symm.trans hinv')
    refine not_live_of_settled (hset identity i error ht) hinv ?_ _
    rw [Invocation.operationId, hsame]
    exact hnone
  cases step with
  | enter request => exact enter_ok hops h hknown
  | finish i outcome => exact ⟨inv_finish h i outcome, extends_finish i outcome⟩
  | wake t =>
    show Inv ops (s.wake t) ∧ Extends s (s.wake t)
    unfold wake
    split
    · rename_i identity owner i ht
      cases hi : s.outcome? i with
      | some outcome => exact wake_ok hops h ht hi
      | none => exact ⟨h, Extends.refl s⟩
    · exact ⟨h, Extends.refl s⟩
  | cancel t =>
    show Inv ops (s.cancel t) ∧ Extends s (s.cancel t)
    unfold cancel
    split
    · rename_i identity owner i ht
      refine ⟨inv_setPhase h ?_, extends_setPhase _⟩
      cases owner with
      | true =>
        refine ⟨nofun, fun j hj => ⟨_, ht, hj⟩, nofun⟩
      | false => exact ⟨nofun, nofun, nofun⟩
    · rename_i identity owner i error ht
      exact hsettled ht horderly
    · exact ⟨h, Extends.refl s⟩
  | cleaned t =>
    show Inv ops (s.cleaned t) ∧ Extends s (s.cleaned t)
    unfold cleaned
    split
    · rename_i identity owner i error ht
      exact hsettled ht horderly
    · exact ⟨h, Extends.refl s⟩

end Steps

end Agora.Mcp
