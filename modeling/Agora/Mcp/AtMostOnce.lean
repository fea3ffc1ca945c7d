import Agora.Mcp.Invariant

namespace Agora.Mcp

open GatewayState

/-!
# At most once

An operation id has one invocation at a time, and once a call has returned a result, all later calls get it
that pass the checks before it.
-/

/-! ### What is required -/

/-- How often the provider was called for an operation id. -/
def started (s : GatewayState) (op : UUID) : ℕ := (s.invocations.map (·.operationId)).count op

/-- The call is made for another identity than the one that is stored or in flight. -/
def Conflicts (s : GatewayState) (identity : MCPCallIdentity) : Prop :=
  (∃ entry, s.dedup? identity.operationId = some entry ∧ entry.identity ≠ identity)
    ∨ ∃ identity' i, s.inflight identity.operationId = some (identity', i) ∧ identity' ≠ identity

structure AtMostOnce (config : Config) (s : GatewayState) : Prop where
  running : ∀ (i j : ℕ) (inv inv' : Invocation), s.invocations[i]? = some inv → s.invocations[j]? = some inv' →
    inv.outcome = none → inv'.outcome = none → inv.operationId = inv'.operationId → i = j
  result : ∀ task ∈ s.tasks, ∀ task' ∈ s.tasks, ∀ r r', task.phase = .returned r →
    task'.phase = .returned r' → task.operationId = task'.operationId → r = r'
  conflict : ∀ r, guards config r = .ok () → Conflicts s r.call.toMCPCallIdentity →
    s.reserve config r = (s, .raised (conflict r.call.toMCPCallIdentity))

/-- After a call has returned a result: nothing was started for its operation id, and a call with the same
    identity that passes the checks gets it. -/
structure Answered (config : Config) (s s' : GatewayState) (task : CallTask) (result : ToolResult) : Prop where
  started : started s' task.operationId = started s task.operationId
  again : ∀ r, guards config r = .ok () → r.call.toMCPCallIdentity = task.identity →
    s'.reserve config r = (s', .returned result)

/-! ### Proofs -/

section Runs

variable {config : Config} {ops : Finset UUID} {s : GatewayState}

theorem reserve_of_dedup {r : Request} {entry : DedupEntry} (hguards : guards config r = .ok ())
    (hentry : s.dedup? r.call.operationId = some entry) :
    s.reserve config r = (s, if entry.identity = r.call.toMCPCallIdentity then .returned entry.result
      else .raised (conflict r.call.toMCPCallIdentity)) := by
  unfold reserve
  rw [hguards]
  simp only [hentry]
  split_ifs <;> rfl

theorem reserve_of_inflight {r : Request} {identity : MCPCallIdentity} {i : ℕ}
    (hguards : guards config r = .ok ()) (hnone : s.dedup? r.call.operationId = none)
    (hin : s.inflight r.call.operationId = some (identity, i)) (hne : identity ≠ r.call.toMCPCallIdentity) :
    s.reserve config r = (s, .raised (conflict r.call.toMCPCallIdentity)) := by
  unfold reserve
  rw [hguards]
  simp only [hnone, hin, if_neg hne]

theorem atMostOnce_of_inv (h : Inv ops s) : AtMostOnce config s := by
  refine ⟨fun i j inv inv' hi hj ho ho' hop => ?_, fun task ht task' ht' r r' hr hr' hop => ?_,
    fun r hguards hconflict => ?_⟩
  · -- Both are in flight.
    have hnone {k : ℕ} {inv : Invocation} (hk : s.invocations[k]? = some inv) (ho : inv.outcome = none) :
        s.dedup? inv.operationId = none := by
      by_contra hne
      obtain ⟨⟨identity, r⟩, hentry⟩ := Option.ne_none_iff_exists'.mp hne
      obtain ⟨-, hresult⟩ := h.kept k inv identity r hk hentry (.inl (.inl ho))
      rw [ho] at hresult
      cases hresult
    have hin := h.live i inv hi (.inl ho) (hnone hi ho)
    have hin' := h.live j inv' hj (.inl ho') (hnone hj ho')
    rw [hop, hin'] at hin
    exact (Prod.mk.inj (Option.some.inj hin)).2.symm
  · have hentry := h.returned task ht r hr
    rw [hop, h.returned task' ht' r' hr'] at hentry
    exact (DedupEntry.mk.inj (Option.some.inj hentry)).2.symm
  · rcases hconflict with ⟨entry, hentry, hne⟩ | ⟨identity, i, hin, hne⟩
    · rw [reserve_of_dedup hguards hentry, if_neg hne]
    · cases hentry : s.dedup? r.call.operationId with
      | none => exact reserve_of_inflight hguards hentry hin hne
      | some entry =>
        -- What is remembered comes from the invocation in flight.
        obtain ⟨hop, inv, hinv, heq⟩ := h.inflight _ _ _ hin
        have hop' : inv.operationId = r.call.operationId := (congrArg MCPCallIdentity.operationId heq).trans hop
        obtain ⟨identity', result⟩ := entry
        obtain ⟨hsame, -⟩ := h.kept i inv identity' result hinv (hop'.symm ▸ hentry)
          (.inr (by rw [hop', heq]; exact hin))
        rw [reserve_of_dedup hguards hentry, if_neg]
        rw [← hsame, heq]
        exact hne

theorem answered_of_extends {s' : GatewayState} (h : Inv ops s) (hextends : Extends s s') {task : CallTask}
    (htask : task ∈ s.tasks) {result : ToolResult} (hreturned : task.phase = .returned result) :
    Answered config s s' task result := by
  have hentry := h.returned task htask result hreturned
  refine ⟨hextends.started _ _ hentry, fun r hguards hsame => ?_⟩
  have hop : r.call.operationId = task.operationId := congrArg MCPCallIdentity.operationId hsame
  rw [reserve_of_dedup hguards (hop ▸ hextends.kept _ _ hentry), if_pos hsame.symm]

theorem run_ok (hops : ops.card < maxDedupEntries) (h : Inv ops s) {steps : List GatewayStep}
    (hsteps : Along (perform config) (fun s step => Known ops step ∧ Orderly s step) s steps) :
    Inv ops (after (perform config) s steps) ∧ Extends s (after (perform config) s steps) := by
  induction steps generalizing s with
  | nil => exact ⟨h, Extends.refl s⟩
  | cons step steps ih =>
    obtain ⟨⟨hknown, horderly⟩, hrest⟩ := hsteps
    obtain ⟨hstep, hextends⟩ : Inv ops (perform config step s).2 ∧ Extends s (perform config step s).2 :=
      perform_ok hops h hknown horderly
    obtain ⟨hinv, hrun⟩ := ih hstep hrest
    exact ⟨hinv, hextends.trans hrun⟩

/-- **At most once.**  With fewer than 1024 operation ids, and as long as no owner that was cancelled or has
    given up leaves while its invocation runs, or while a task waits for a valid result of it that is not
    remembered, all this holds in every state of a run. -/
theorem at_most_once (hops : ops.card < maxDedupEntries) {steps : List GatewayStep}
    (hsteps : Along (perform config) (fun s step => Known ops step ∧ Orderly s step) .empty steps)
    {earlier later : List GatewayStep} (heq : steps = earlier ++ later) :
    AtMostOnce config (after (perform config) .empty earlier)
      ∧ ∀ task ∈ (after (perform config) .empty earlier).tasks, ∀ result, task.phase = .returned result →
        Answered config (after (perform config) .empty earlier) (after (perform config) .empty steps) task
          result := by
  subst heq
  obtain ⟨hearlier, hlater⟩ := along_append.mp hsteps
  obtain ⟨hinv, -⟩ := run_ok hops (inv_empty ops) hearlier
  obtain ⟨-, hextends⟩ := run_ok hops hinv hlater
  refine ⟨atMostOnce_of_inv hinv, fun task htask result hreturned => ?_⟩
  rw [after_append]
  exact answered_of_extends hinv hextends htask hreturned

end Runs

/-! ### A run -/

section Sample

/-- A version 7 UUID that ends in this digit. -/
def uuid7 (digit : Fin 10) : UUID where
  text := "01999999-9999-7999-8999-99999999999".push (Nat.digitChar digit)
  canonical := by revert digit; decide +kernel

def emptyArgsHash : Marl.Hash where
  text := "sha256:0000000000000000000000000000000000000000000000000000000000000000"
  isValid := Ledger.genesisHash.isValid

def fixtureConfig : Config where
  fixtureServer := { serverId := "fixture", version := 1, endpoint := "http://fixture", manifestHash := emptyArgsHash }

/-- Half past twelve. -/
def sampleDeadline : Datetime :=
  ⟨⟨2026, 9, 5, valid2026, validSeptember, validFifth⟩, 12, 30, 0, 0, by decide⟩

def sampleClock (minute : Fin 60) : Datetime :=
  ⟨⟨2026, 9, 5, valid2026, validSeptember, validFifth⟩, 12, minute, 0, 0, by decide, minute.2, by decide, by decide⟩

def sampleCall : ToolCall where
  server := fixtureConfig.fixtureServer
  toolName := "fixture.read_echo"
  context :=
    { workloadSubject := "reasoning-worker", workspaceId := uuid7 1, sessionId := uuid7 2,
      agentDefinitionId := uuid7 3, agentDefinitionVersion := 1, operationId := uuid7 4,
      correlationId := uuid7 5, round := 1, deadlineAt := sampleDeadline }
  argsHash := emptyArgsHash
  arguments := [(PyStr.ofString "value", .text "x")]

/-- The call, made at this minute. -/
def sampleRequest (minute : Fin 60) : Request where
  token := "valid"
  call := sampleCall
  verified := .principal { subject := "reasoning-worker", audience := "mcp-gateway", expiresAt := 1 }
  contextCheck := .valid
  epoch := 0
  now := sampleClock minute

def sampleResult : ToolResult where
  operationId := uuid7 4
  correlationId := uuid7 5
  server := fixtureConfig.fixtureServer
  toolName := "fixture.read_echo"
  content := [⟨true, .obj [(PyStr.ofString "fixture", .bool true), (PyStr.ofString "value", .text "x")]⟩]
  sourceUri := some "http://fixture"
  untrusted := true
  others := .null

/-- A call that is made, answered and returned. -/
def sampleSteps : List GatewayStep := [.enter (sampleRequest 0), .finish 0 (.result sampleResult), .wake 0]

/-- All checks but the last. -/
theorem guards_sampleRequest (minute : Fin 60) : guards fixtureConfig (sampleRequest minute)
    = ensure (sampleClock minute < sampleDeadline)
      (failure .toolTimeout sampleCall.toMCPCallIdentity "trusted deadline expired") := by
  have hverify : verify fixtureConfig (sampleRequest minute) = .ok () := by
    simp [verify, sampleRequest, sampleCall, fixtureConfig, ensure]
  have hforbidden : ∀ entry ∈ (sampleRequest minute).call.arguments, entry.1 ∉ forbiddenContextArguments := by
    show ∀ entry ∈ sampleCall.arguments, entry.1 ∉ forbiddenContextArguments
    decide
  have harguments : fixtureArgumentsValid (sampleRequest minute).call.arguments = true := by
    show fixtureArgumentsValid sampleCall.arguments = true
    decide
  have hauthorize : authorize (sampleRequest minute) = .ok () := rfl
  have hensure {p : Prop} [Decidable p] (hp : p) (e : GatewayError) : ensure p e = .ok () := if_pos hp
  have hserver : (sampleRequest minute).call.server = fixtureConfig.fixtureServer := rfl
  have htool : (sampleRequest minute).call.toolName = "fixture.read_echo" := rfl
  unfold guards
  rw [hverify, Except.ok_bind, hauthorize, Except.ok_bind, hensure hserver, Except.ok_bind, hensure htool,
    Except.ok_bind, hensure hforbidden, Except.ok_bind, hensure harguments, Except.ok_bind]
  rfl

theorem sampleClock_lt : sampleClock 0 < sampleDeadline := by
  show (sampleClock 0).key < sampleDeadline.key
  decide

theorem not_sampleClock_lt : ¬ sampleClock 30 < sampleDeadline := by
  show ¬ (sampleClock 30).key < sampleDeadline.key
  decide

theorem resultValid_sampleResult : resultValid sampleCall.toMCPCallIdentity sampleResult = true := by
  decide

theorem enter_sampleRequest : (perform fixtureConfig (.enter (sampleRequest 0)) .empty).2
    = (GatewayState.empty.start sampleCall.toMCPCallIdentity).withTask
      ⟨sampleCall.toMCPCallIdentity, .waiting true 0⟩ := by
  have hguards : guards fixtureConfig (sampleRequest 0) = .ok () :=
    (guards_sampleRequest 0).trans (if_pos sampleClock_lt)
  show GatewayState.enter _ _ _ = _
  unfold enter reserve
  rw [hguards]
  rfl

theorem tasks_sampleSteps : (after (perform fixtureConfig) .empty sampleSteps).tasks
    = [⟨sampleCall.toMCPCallIdentity, .returned sampleResult⟩] := by
  rw [sampleSteps, after_cons, enter_sampleRequest, after_cons, after_cons, after_nil]
  let waiting : GatewayState := ((GatewayState.empty.start sampleCall.toMCPCallIdentity).withTask
    ⟨sampleCall.toMCPCallIdentity, .waiting true 0⟩).finish 0 (.result sampleResult)
  have hwake : waiting.wake 0
      = (waiting.resume sampleCall.toMCPCallIdentity true 0 (.result sampleResult)).1.setPhase 0
        sampleCall.toMCPCallIdentity
        (waiting.resume sampleCall.toMCPCallIdentity true 0 (.result sampleResult)).2 := rfl
  show (waiting.wake 0).tasks = _
  rw [hwake, resume_valid resultValid_sampleResult]
  rfl

/-- After the deadline a call with the same identity does not get the result any more: the checks come
    first. -/
theorem answered_not_again : ¬ ∀ (config : Config) (steps : List GatewayStep) (task : CallTask)
    (result : ToolResult) (r : Request), task ∈ (after (perform config) .empty steps).tasks →
    task.phase = .returned result → r.call.toMCPCallIdentity = task.identity →
    ((after (perform config) .empty steps).reserve config r).2 = .returned result := by
  intro h
  have hlate := h fixtureConfig sampleSteps ⟨sampleCall.toMCPCallIdentity, .returned sampleResult⟩ sampleResult
    (sampleRequest 30) (by rw [tasks_sampleSteps]; exact List.mem_singleton_self _) rfl rfl
  unfold reserve at hlate
  rw [(guards_sampleRequest 30).trans (if_neg not_sampleClock_lt)] at hlate
  cases hlate

/-- The call is made again in time. -/
theorem at_most_once_sample :
    AtMostOnce fixtureConfig (after (perform fixtureConfig) .empty sampleSteps)
      ∧ ∀ task ∈ (after (perform fixtureConfig) .empty sampleSteps).tasks, ∀ result,
        task.phase = .returned result →
        Answered fixtureConfig (after (perform fixtureConfig) .empty sampleSteps)
          (after (perform fixtureConfig) .empty (sampleSteps ++ [.enter (sampleRequest 0)])) task result := by
  have hops : ({uuid7 4} : Finset UUID).card < maxDedupEntries := by
    rw [Finset.card_singleton]
    decide
  refine @at_most_once fixtureConfig _ hops (sampleSteps ++ [.enter (sampleRequest 0)]) ?_ _ _ rfl
  have hknown (minute : Fin 60) : Known {uuid7 4} (.enter (sampleRequest minute)) := Finset.mem_singleton_self _
  exact ⟨⟨hknown 0, trivial⟩, ⟨trivial, trivial⟩, ⟨trivial, trivial⟩, ⟨hknown 0, trivial⟩, trivial⟩

end Sample

end Agora.Mcp
