import Agora.Lib.WorkerPool
import Agora.Turns.Assembly

namespace Agora.Turns

open Marl (Text isHash)
open Ledger (NonBlank)

/-!
# Dispatching turns

A batch of turns is run by a fixed number of workers on a shared queue.  Whatever the order in which
they finish, the outcomes are those of running the turns one by one, in the order of the batch
(`dispatch_result`); each turn is run at most once (`dispatch_started`); and the stateless runtime
answers with the strategy that the turn has pinned (`dispatch_attributed`).
-/

/-- What all proposals have. -/
class ProposalLike (P : Type) where
  turnId : P → UUID

variable {P : Type}

/-! ### Results -/

/-- `^.+/.+#sha256:[0-9a-f]{64}$`: the last 71 characters are a hash, and `.` is no line break. -/
def isArtifactRef (s : String) : Bool :=
  let path := s.toList.take (s.toList.length - 72)
  (s.toList.drop path.length).take 1 = ['#'] && isHash (String.ofList (s.toList.drop (path.length + 1)))
    && path.all (· ≠ '\n') && (path.drop 1).dropLast.contains '/'

/-- The arguments of a `TurnExecutionResult`. -/
structure ExecutionFields (P : Type) where
  proposal : P
  provider : Option (Text fun s => s ≠ "") := none
  model : Option (Text fun s => s ≠ "") := none
  inputTokens : ℕ := 0
  outputTokens : ℕ := 0
  costUsd : Coordinator.Decimal := ⟨0, 0⟩
  rawArtifactRef : Option (Text isArtifactRef) := none

/-- Attribution is complete or absent, and nothing is accounted for without it. -/
structure TurnExecutionResult (P : Type) extends ExecutionFields P where
  complete_attribution : (provider.isSome ∨ model.isSome ∨ rawArtifactRef.isSome) →
    provider.isSome ∧ model.isSome ∧ rawArtifactRef.isSome
  zero_accounting : provider = none → inputTokens = 0 ∧ outputTokens = 0 ∧ costUsd.coefficient = 0

/-- `TurnExecutionResult(proposal=proposed)`. -/
def TurnExecutionResult.ofProposal (proposal : P) : TurnExecutionResult P where
  proposal := proposal
  complete_attribution := by rintro (h | h | h) <;> cases h
  zero_accounting _ := ⟨rfl, rfl, rfl⟩

inductive DispatchDisposition where
  | completed
  | abstain
deriving DecidableEq, Repr

section Dispatch

variable [ProposalLike P]

open ProposalLike

/-- A proposal of the turn or a timeout. -/
structure TurnDispatchOutcome (P : Type) [ProposalLike P] where
  context : ReasoningContext
  disposition : DispatchDisposition
  eventType : String
  execution : Option (TurnExecutionResult P)
  completed : disposition = .completed → eventType = "AGENT_TURN_COMPLETED"
    ∧ ∃ e, execution = some e ∧ turnId e.proposal = context.turnId
  abstained : disposition = .abstain → eventType = "TURN_TIMEOUT" ∧ execution = none

def TurnDispatchOutcome.proposal (outcome : TurnDispatchOutcome P) : Option P :=
  outcome.execution.map (·.proposal)

/-- The constructor with its validator. -/
def turnDispatchOutcome (context : ReasoningContext) (disposition : DispatchDisposition)
    (eventType : String) (execution : Option (TurnExecutionResult P)) :
    Py (TurnDispatchOutcome P) :=
  match disposition with
  | .completed =>
    match execution with
    | some e =>
      if htype : eventType = "AGENT_TURN_COMPLETED" then
        if hturn : turnId e.proposal = context.turnId then
          .ok ⟨context, .completed, eventType, some e, fun _ => ⟨htype, e, rfl, hturn⟩, nofun⟩
        else .error (.valueError "dispatch proposal does not match its logical turn")
      else .error (.valueError "completed dispatch requires its proposal and completion event")
    | none => .error (.valueError "completed dispatch requires its proposal and completion event")
  | .abstain =>
    if h : eventType = "TURN_TIMEOUT" ∧ execution = none then
      .ok ⟨context, .abstain, eventType, execution, nofun, fun _ => h⟩
    else .error (.valueError "abstaining dispatch requires a timeout event and no proposal")

/-! ### The dispatcher -/

/-- What a runtime does with a turn: it returns in time, or not, or raises.  A `TimeoutError` that it raises
    itself is not told from one of `asyncio.wait_for`. -/
inductive TurnReply (α : Type) where
  | returned (a : α)
  | timedOut
  | raised (e : PyException)

/-- The replies of the runtime are those to the turns of one batch, by their positions. -/
structure AgentTurnDispatcher (P : Type) where
  reply : ReasoningContext → ℕ → TurnReply (TurnExecutionResult P)
  workerLimit : ℕ
  positive_limit : 1 ≤ workerLimit

/-- `AgentTurnDispatcher.__init__`. -/
def agentTurnDispatcher (reply : ReasoningContext → ℕ → TurnReply (TurnExecutionResult P))
    (workerLimit : ℤ) : Py (AgentTurnDispatcher P) :=
  if h : workerLimit < 1 then .error (.valueError "worker_limit must be at least 1")
  else .ok ⟨reply, workerLimit.toNat, by omega⟩

/-- One pass through the loop of a worker. -/
def settle (context : ReasoningContext) : TurnReply (TurnExecutionResult P) → Py (TurnDispatchOutcome P)
  | .returned execution =>
    turnDispatchOutcome context .completed "AGENT_TURN_COMPLETED" (some execution)
  | .timedOut => turnDispatchOutcome context .abstain "TURN_TIMEOUT" none
  | .raised e => .error e

namespace AgentTurnDispatcher

variable (d : AgentTurnDispatcher P)

def run (context : ReasoningContext) (index : ℕ) : Py (TurnDispatchOutcome P) :=
  settle context (d.reply context index)

/-- The pool after the steps of a schedule. -/
def pool (contexts : List ReasoningContext) (schedule : List (PoolStep PyException)) :
    Pool ReasoningContext (TurnDispatchOutcome P) PyException :=
  after (Pool.exec d.run) (Pool.initial d.workerLimit contexts) schedule

/-- `dispatch`, once its workers are done. -/
def dispatch (contexts : List ReasoningContext) (schedule : List (PoolStep PyException)) :
    Option (Py (List (TurnDispatchOutcome P))) :=
  match validateBatch contexts with
  | .error e => some (.error e)
  | .ok () =>
    if (d.pool contexts schedule).Ended then
      some ((d.pool contexts schedule).result
        (.runtimeError "shared worker pool did not produce every dispatch outcome"))
    else none

/-- What it comes to: the turns are run one after the other. -/
def oneByOne (contexts : List ReasoningContext) : Py (List (TurnDispatchOutcome P)) := do
  validateBatch contexts
  contexts.zipIdx.mapM fun x => d.run x.1 x.2

end AgentTurnDispatcher

/-! ### Batches -/

/-- The keys of a context that a batch must share. -/
def SameBatch (c c' : ReasoningContext) : Prop :=
  (c.workspaceId, c.sessionId, c.round, c.phase) = (c'.workspaceId, c'.sessionId, c'.round, c'.phase)

/-- A batch that may be dispatched. -/
structure Coherent (contexts : List ReasoningContext) : Prop where
  ne_nil : contexts ≠ []
  shared : ∀ c ∈ contexts, ∀ c' ∈ contexts, SameBatch c c'
  turns : (contexts.map (·.turnId)).Nodup
  agents : (contexts.map (·.agentDefinitionId)).Nodup

theorem validateBatchFrom_eq_ok_iff {first : ReasoningContext} {turnIds agentIds : List UUID}
    {contexts : List ReasoningContext} : validateBatchFrom first turnIds agentIds contexts = .ok ()
      ↔ (∀ c ∈ contexts, SameBatch c first)
        ∧ ((contexts.map (·.turnId)).Nodup ∧ turnIds.Disjoint (contexts.map (·.turnId)))
        ∧ (contexts.map (·.agentDefinitionId)).Nodup
        ∧ agentIds.Disjoint (contexts.map (·.agentDefinitionId)) := by
  induction contexts generalizing turnIds agentIds with
  | nil => simp [validateBatchFrom]
  | cons c rest ih =>
    -- A context is sealed when it has to be.
    have hsealed : ¬ (c.round = 1 ∧ c.phase = .assess
        ∧ (c.isSealed = false ∨ c.visibleArtifacts.isEmpty = false)) := by
      rintro ⟨hround, hphase, hopen⟩
      obtain ⟨hsealed, hnone⟩ := c.sealed_assessment ⟨hround, hphase⟩
      rcases hopen with h | h
      · rw [hsealed] at h
        cases h
      · rw [hnone] at h
        cases h
    unfold validateBatchFrom
    rw [if_neg hsealed]
    simp only [List.map_cons, List.nodup_cons, List.disjoint_cons_right, List.forall_mem_cons]
    split_ifs with hkey hunique
    · exact iff_of_false nofun fun h => hkey h.1.1
    · refine iff_of_false nofun fun h => ?_
      rcases hunique with hturn | hagent
      · exact h.2.1.2.1 hturn
      · exact h.2.2.2.1 hagent
    · rw [ih]
      simp only [List.disjoint_cons_left]
      push Not at hkey hunique
      constructor
      · rintro ⟨hshared, ⟨hturns, hturn, hold⟩, hagents, hagent, hknown⟩
        exact ⟨⟨hkey, hshared⟩, ⟨⟨hturn, hturns⟩, hunique.1, hold⟩, ⟨hagent, hagents⟩, hunique.2, hknown⟩
      · rintro ⟨⟨-, hshared⟩, ⟨⟨hturn, hturns⟩, -, hold⟩, ⟨hagent, hagents⟩, -, hknown⟩
        exact ⟨hshared, ⟨hturns, hturn, hold⟩, hagents, hagent, hknown⟩

theorem validateBatch_eq_ok_iff {contexts : List ReasoningContext} :
    validateBatch contexts = .ok () ↔ Coherent contexts := by
  cases contexts with
  | nil => exact iff_of_false nofun fun h => h.ne_nil rfl
  | cons first rest =>
    refine validateBatchFrom_eq_ok_iff.trans ⟨fun h => ?_, fun h => ?_⟩
    · obtain ⟨hshared, ⟨hturns, -⟩, hagents, -⟩ := h
      exact ⟨List.cons_ne_nil _ _, fun c hc c' hc' => (hshared c hc).trans (hshared c' hc').symm,
        hturns, hagents⟩
    · exact ⟨fun c hc => h.shared c hc first List.mem_cons_self,
        ⟨h.turns, List.disjoint_nil_left _⟩, h.agents, List.disjoint_nil_left _⟩

/-! ### Schedules -/

variable {d : AgentTurnDispatcher P} {contexts : List ReasoningContext}
  {schedule : List (PoolStep PyException)}

theorem AgentTurnDispatcher.sound_pool (d : AgentTurnDispatcher P) (contexts : List ReasoningContext)
    (schedule : List (PoolStep PyException)) :
    Pool.Sound d.run contexts (fun e => .abort e ∈ schedule) d.workerLimit (d.pool contexts schedule) :=
  Pool.sound_after d.run contexts d.workerLimit schedule

theorem settle_context {context : ReasoningContext} {reply : TurnReply (TurnExecutionResult P)}
    {outcome : TurnDispatchOutcome P} (h : settle context reply = .ok outcome) :
    outcome.context = context := by
  cases reply with
  | raised e => cases h
  | timedOut =>
    cases h
    rfl
  | returned execution =>
    unfold settle turnDispatchOutcome at h
    simp only at h
    split_ifs at h
    all_goals
      cases h
      rfl

theorem oneByOne_context {outcomes : List (TurnDispatchOutcome P)}
    (h : d.oneByOne contexts = .ok outcomes) : outcomes.map (·.context) = contexts := by
  obtain ⟨-, -, hrun⟩ := Except.bind_eq_ok.mp h
  have hcontexts := Except.map_eq_of_mapM (g := (·.context)) (k := Prod.fst)
    (fun x outcome hx => settle_context hx) hrun
  rw [hcontexts, List.zipIdx_map_fst]

/-- A dispatch that has ended was refused, or its pool has. -/
theorem dispatch_cases {result : Py (List (TurnDispatchOutcome P))}
    (hresult : d.dispatch contexts schedule = some result) :
    (∃ e, validateBatch contexts = .error e ∧ result = .error e)
      ∨ validateBatch contexts = .ok () ∧ (d.pool contexts schedule).Ended
        ∧ ∃ incomplete, result = (d.pool contexts schedule).result incomplete := by
  unfold AgentTurnDispatcher.dispatch at hresult
  cases hbatch : validateBatch contexts with
  | error e =>
    rw [hbatch] at hresult
    exact .inl ⟨e, rfl, (Option.some.inj hresult).symm⟩
  | ok _ =>
    rw [hbatch] at hresult
    simp only at hresult
    split_ifs at hresult with hended
    exact .inr ⟨rfl, hended, _, (Option.some.inj hresult).symm⟩

theorem dispatch_eq_ok_iff (hschedule : ∀ e, .abort e ∉ schedule)
    {result : Py (List (TurnDispatchOutcome P))} (hresult : d.dispatch contexts schedule = some result)
    (outcomes : List (TurnDispatchOutcome P)) :
    result = .ok outcomes ↔ d.oneByOne contexts = .ok outcomes := by
  unfold AgentTurnDispatcher.oneByOne
  rcases dispatch_cases hresult with ⟨e, hbatch, rfl⟩ | ⟨hbatch, hended, incomplete, rfl⟩
  · rw [hbatch, Except.error_bind]
  · rw [hbatch, Except.ok_bind]
    exact (d.sound_pool contexts schedule).result_eq_ok_iff hschedule d.positive_limit hended
      incomplete outcomes

/-- **Dispatch.**  Whatever the schedule, a dispatch that is not cancelled returns what running the turns one
    by one returns: the outcomes of all turns, in the order of the batch, or it raises what the
    batch or one of its turns does. -/
theorem dispatch_result (d : AgentTurnDispatcher P) (contexts : List ReasoningContext)
    {schedule : List (PoolStep PyException)} (hschedule : ∀ e, .abort e ∉ schedule)
    {result : Py (List (TurnDispatchOutcome P))} (hresult : d.dispatch contexts schedule = some result) :
    (∀ outcomes, result = .ok outcomes ↔ d.oneByOne contexts = .ok outcomes)
      ∧ (∀ outcomes, result = .ok outcomes → outcomes.map (·.context) = contexts)
      ∧ ∀ e, result = .error e → validateBatch contexts = .error e
        ∨ ∃ x ∈ contexts.zipIdx, d.run x.1 x.2 = .error e := by
  have hok := dispatch_eq_ok_iff hschedule hresult
  refine ⟨hok, fun outcomes h => oneByOne_context ((hok outcomes).mp h), fun e he => ?_⟩
  rcases dispatch_cases hresult with ⟨e', hbatch, rfl⟩ | ⟨-, hended, incomplete, rfl⟩
  · cases he
    exact .inl hbatch
  · have hsound := d.sound_pool contexts schedule
    rcases hsound.of_result_eq_error d.positive_limit hended he with ⟨x, hx, hrun⟩ | haborted
    · refine .inr ⟨x, ?_, hrun⟩
      rw [← hsound.queue]
      exact List.mem_append_left _ hx
    · exact absurd haborted (hschedule e)

/-- **Turns.**  At every moment of every schedule the turns that have been started are the first of the
    batch, each once, and no more of them run than there are workers; and until all workers are done one of
    them can go on, which it can do only so often. -/
theorem dispatch_started (d : AgentTurnDispatcher P) {contexts : List ReasoningContext}
    (hcontexts : validateBatch contexts = .ok ()) (schedule : List (PoolStep PyException)) :
    (d.pool contexts schedule).started <+: contexts.zipIdx
      ∧ ((d.pool contexts schedule).started.map (·.1.turnId)).Nodup
      ∧ (d.pool contexts schedule).workers.countP (·.isRunning) ≤ d.workerLimit
      ∧ ((d.pool contexts schedule).Ended ∨ ∃ worker,
        (d.pool contexts schedule).enabled (.start worker) = true
          ∨ (d.pool contexts schedule).enabled (.finish worker) = true)
      ∧ Pool.moves d.run (Pool.initial d.workerLimit contexts) schedule
        ≤ contexts.length + min d.workerLimit contexts.length := by
  have hsound := d.sound_pool contexts schedule
  have hstarted : (d.pool contexts schedule).started <+: contexts.zipIdx := ⟨_, hsound.queue⟩
  refine ⟨hstarted, ?_, ?_, ?_, ?_⟩
  · have hturns := (validateBatch_eq_ok_iff.mp hcontexts).turns
    have hfst := hstarted.map Prod.fst
    rw [List.zipIdx_map_fst] at hfst
    have hsub := (hfst.map (·.turnId)).sublist.nodup hturns
    rwa [List.map_map] at hsub
  · refine List.countP_le_length.trans ?_
    rw [hsound.workers]
    exact min_le_left _ _
  · by_cases hended : (d.pool contexts schedule).Ended
    · exact .inl hended
    · exact .inr (Pool.exists_enabled hended)
  · have hload := Pool.load_after d.run (Pool.initial d.workerLimit contexts) schedule
    rw [Pool.load_initial] at hload
    omega

/-! ### The stateless runtime -/

/-- `propose` answers a turn with a proposal or with a result. -/
structure ReasoningStrategy (P : Type) where
  name : String
  version : String
  propose : ReasoningContext → TurnReply (P ⊕ TurnExecutionResult P)

def ReasoningStrategy.key (strategy : ReasoningStrategy P) : String × String :=
  (strategy.name, strategy.version)

/-- A dictionary of strategies by name and version. -/
structure StrategyRegistry (P : Type) where
  strategies : List (ReasoningStrategy P)
  unique : (strategies.map (·.key)).Nodup

/-- `_required`. -/
def required (value label : String) : Py String :=
  if isBlank value then .error (.valueError (label ++ " must not be blank")) else .ok value

/-- The loop of `StrategyRegistry.__init__`. -/
def registerAll (registered : StrategyRegistry P) : List (ReasoningStrategy P) → Py (StrategyRegistry P)
  | [] => .ok registered
  | strategy :: rest => do
    let _ ← required strategy.name "strategy name"
    let _ ← required strategy.version "version"
    if h : strategy.key ∈ registered.strategies.map (·.key) then
      .error (.valueError ("duplicate reasoning strategy " ++ strategy.name ++ "@" ++ strategy.version))
    else
      registerAll
        { strategies := registered.strategies ++ [strategy]
          unique := by
            rw [List.map_append]
            exact List.nodup_append_comm.mp (List.nodup_cons.mpr ⟨h, registered.unique⟩) } rest

def strategyRegistry : List (ReasoningStrategy P) → Py (StrategyRegistry P) :=
  registerAll ⟨[], List.nodup_nil⟩

def StrategyRegistry.resolve (registry : StrategyRegistry P) (name version : String) :
    Py (ReasoningStrategy P) :=
  match dictGet (·.key) registry.strategies (name, version) with
  | none => .error (permanentPortError ("unknown reasoning strategy " ++ name ++ "@" ++ version))
  | some strategy => .ok strategy

/-- The result of a proposal. -/
def TurnExecutionResult.ofProposed : P ⊕ TurnExecutionResult P → TurnExecutionResult P
  | .inl proposal => .ofProposal proposal
  | .inr result => result

/-- `StatelessAgentRuntime.run_turn`. -/
def runTurn (registry : StrategyRegistry P) (context : ReasoningContext) :
    TurnReply (TurnExecutionResult P) :=
  match registry.resolve context.strategyName.text context.strategyVersion.text with
  | .error e => .raised e
  | .ok strategy =>
    match strategy.propose context with
    | .timedOut => .timedOut
    | .raised e => .raised e
    | .returned proposed =>
      let result := TurnExecutionResult.ofProposed proposed
      if turnId result.proposal ≠ context.turnId then
        .raised (permanentPortError "reasoning strategy returned a proposal for another turn")
      else .returned result

omit [ProposalLike P] in
theorem mem_registerAll {registered registry : StrategyRegistry P} {l : List (ReasoningStrategy P)}
    (h : registerAll registered l = .ok registry) {strategy : ReasoningStrategy P} :
    strategy ∈ registry.strategies ↔ strategy ∈ registered.strategies ∨ strategy ∈ l := by
  induction l generalizing registered with
  | nil =>
    cases h
    simp
  | cons s rest ih =>
    unfold registerAll at h
    obtain ⟨-, -, h⟩ := Except.bind_eq_ok.mp h
    obtain ⟨-, -, h⟩ := Except.bind_eq_ok.mp h
    split_ifs at h with hmem
    rw [ih h, List.mem_append, List.mem_singleton, List.mem_cons, or_assoc]

omit [ProposalLike P] in
theorem resolve_eq_ok_iff {registry : StrategyRegistry P} {name version : String}
    {strategy : ReasoningStrategy P} : registry.resolve name version = .ok strategy
      ↔ strategy ∈ registry.strategies ∧ strategy.key = (name, version) := by
  rw [← dictGet_eq_some registry.unique]
  unfold StrategyRegistry.resolve
  split
  case h_1 hnone => simp [hnone]
  case h_2 found hfound => simp [hfound]

/-- What the runtime has done for the turn of an outcome. -/
theorem settle_runTurn {registry : StrategyRegistry P} {context : ReasoningContext}
    {outcome : TurnDispatchOutcome P} (h : settle context (runTurn registry context) = .ok outcome) :
    ∃ strategy ∈ registry.strategies,
      strategy.key = (context.strategyName.text, context.strategyVersion.text)
        ∧ (outcome.disposition = .abstain ∧ strategy.propose context = .timedOut
          ∨ outcome.disposition = .completed ∧ ∃ proposed, strategy.propose context = .returned proposed
            ∧ outcome.execution = some (TurnExecutionResult.ofProposed proposed)) := by
  unfold runTurn at h
  cases hresolve : registry.resolve context.strategyName.text context.strategyVersion.text with
  | error e =>
    rw [hresolve] at h
    cases h
  | ok strategy =>
    obtain ⟨hmem, hkey⟩ := resolve_eq_ok_iff.mp hresolve
    refine ⟨strategy, hmem, hkey, ?_⟩
    rw [hresolve] at h
    simp only at h
    cases hproposed : strategy.propose context with
    | raised e =>
      rw [hproposed] at h
      cases h
    | timedOut =>
      rw [hproposed] at h
      cases h
      exact .inl ⟨rfl, rfl⟩
    | returned proposed =>
      rw [hproposed] at h
      simp only at h
      split_ifs at h with hturn
      · cases h
      · unfold settle turnDispatchOutcome at h
        simp only at h
        split_ifs at h
        all_goals
          cases h
          exact .inr ⟨rfl, proposed, rfl, rfl⟩

/-- **Attribution.**  With the stateless runtime every outcome of a dispatch is that of the one registered
    strategy that the turn has pinned, by name and version: what it proposed for the turn in time,
    under the id of the turn, or an abstention. -/
theorem dispatch_attributed {strategies : List (ReasoningStrategy P)} {registry : StrategyRegistry P}
    (hregistry : strategyRegistry strategies = .ok registry) {d : AgentTurnDispatcher P}
    (hreply : ∀ context index, d.reply context index = runTurn registry context)
    {contexts : List ReasoningContext} {schedule : List (PoolStep PyException)}
    (hschedule : ∀ e, .abort e ∉ schedule) {outcomes : List (TurnDispatchOutcome P)}
    (hresult : d.dispatch contexts schedule = some (.ok outcomes)) :
    ∀ outcome ∈ outcomes, ∃ strategy ∈ strategies,
      strategy.key = (outcome.context.strategyName.text, outcome.context.strategyVersion.text)
        ∧ (outcome.disposition = .abstain ∧ strategy.propose outcome.context = .timedOut
          ∨ outcome.disposition = .completed ∧ ∃ proposed,
            strategy.propose outcome.context = .returned proposed
              ∧ outcome.execution = some (TurnExecutionResult.ofProposed proposed)) := by
  have hsequential := (dispatch_eq_ok_iff hschedule hresult outcomes).mp rfl
  obtain ⟨-, -, hrun⟩ := Except.bind_eq_ok.mp hsequential
  intro outcome houtcome
  obtain ⟨x, -, hx⟩ := Except.exists_of_mem_mapM hrun houtcome
  have hsettled : settle x.1 (runTurn registry x.1) = .ok outcome := by
    rw [← hreply x.1 x.2]
    exact hx
  obtain ⟨strategy, hmem, hattributed⟩ := settle_runTurn hsettled
  refine ⟨strategy, ?_, ?_⟩
  · simpa using (mem_registerAll hregistry).mp hmem
  · rw [settle_context hsettled]
    exact hattributed

end Dispatch

/-! ### Two experts -/

open Session (sampleId sampleId_injective)

/-- A proposal that has nothing but its turn. -/
structure SampleProposal where
  turnId : UUID

instance : ProposalLike SampleProposal := ⟨SampleProposal.turnId⟩

def sampleAgent (digit : Fin 10) : PinnedAgentDefinition where
  id := sampleId digit
  logicalId := sampleId digit
  version := 1
  name := ⟨"expert", by decide⟩
  domain := ⟨"energy", by decide⟩
  roleKind := "domain_expert"
  objectives := []
  constraints := []
  knowledgeNamespaceIds := []
  strategyName := ⟨"assess", by decide⟩
  strategyVersion := ⟨"1", .refl true⟩
  promptRef := ⟨"prompts/assess.txt", by decide⟩
  promptHash := Ledger.genesisHash
  positive_version := Nat.one_pos

def sampleTurn (digit : Fin 10) : ReasoningContext where
  workspaceId := sampleId 0
  sessionId := sampleId 1
  agentDefinition := sampleAgent digit
  canonicalizerVersion := ⟨"1", .refl true⟩
  turnId := sampleId digit
  correlationId := sampleId 0
  causationId := sampleId 0
  round := 1
  phase := .assess
  problemStatement := ⟨"Which grid?", .refl true⟩
  objectiveSummaries := []
  constraintSummaries := []
  visibleArtifacts := []
  retrieval := none
  isSealed := true
  budgetRemainingTokens := 100
  budgetRemainingUsd := ⟨1, 0⟩
  timeoutS := sampleRequest.timeoutS
  positive_round := Nat.one_pos
  positive_tokens := sampleRequest.positive_tokens
  positive_timeout := sampleRequest.positive_timeout
  unique_artifacts := List.nodup_nil
  sealed_assessment _ := ⟨rfl, rfl⟩

def sampleStrategy : ReasoningStrategy SampleProposal where
  name := "assess"
  version := "1"
  propose context := .returned (.inl ⟨context.turnId⟩)

def sampleRegistry : StrategyRegistry SampleProposal := ⟨[sampleStrategy], by simp⟩

def sampleDispatcher : AgentTurnDispatcher SampleProposal where
  reply context _ := runTurn sampleRegistry context
  workerLimit := 2
  positive_limit := by decide

/-- The second turn finishes first. -/
def crossed : List (PoolStep PyException) := [.start 0, .start 1, .finish 1, .finish 0]

theorem validateBatch_sample : validateBatch [sampleTurn 2, sampleTurn 3] = .ok () := by
  refine validateBatch_eq_ok_iff.mpr ⟨List.cons_ne_nil _ _, ?_, ?_, ?_⟩
  · simp [SameBatch, sampleTurn]
  · simp [sampleTurn, sampleId_injective.eq_iff]
  · simp [sampleTurn, sampleAgent, ReasoningContext.agentDefinitionId, sampleId_injective.eq_iff]

theorem dispatch_sample : ∃ outcomes,
    sampleDispatcher.dispatch [sampleTurn 2, sampleTurn 3] crossed = some (.ok outcomes) := by
  unfold AgentTurnDispatcher.dispatch
  rw [validateBatch_sample]
  exact ⟨_, rfl⟩

theorem not_abort_crossed (e : PyException) : .abort e ∉ crossed := by
  simp [crossed]

theorem dispatch_result_sample : ∃ outcomes : List (TurnDispatchOutcome SampleProposal),
    sampleDispatcher.oneByOne [sampleTurn 2, sampleTurn 3] = .ok outcomes
      ∧ outcomes.map (·.context) = [sampleTurn 2, sampleTurn 3] := by
  obtain ⟨outcomes, hdispatch⟩ := dispatch_sample
  obtain ⟨hok, hcontexts, -⟩ := dispatch_result sampleDispatcher _ not_abort_crossed hdispatch
  exact ⟨outcomes, (hok outcomes).mp rfl, hcontexts outcomes rfl⟩

theorem dispatch_started_sample :
    ((sampleDispatcher.pool [sampleTurn 2, sampleTurn 3] crossed).started.map (·.1.turnId)).Nodup :=
  (dispatch_started sampleDispatcher validateBatch_sample crossed).2.1

theorem dispatch_attributed_sample : ∃ outcomes,
    sampleDispatcher.dispatch [sampleTurn 2, sampleTurn 3] crossed = some (.ok outcomes)
      ∧ ∀ outcome ∈ outcomes, ∃ strategy ∈ [sampleStrategy], strategy.key = ("assess", "1") := by
  have hregistry : strategyRegistry [sampleStrategy] = .ok sampleRegistry := rfl
  obtain ⟨outcomes, hdispatch⟩ := dispatch_sample
  refine ⟨outcomes, hdispatch, fun outcome houtcome => ?_⟩
  obtain ⟨strategy, hmem, -, -⟩ :=
    dispatch_attributed hregistry (fun _ _ => rfl) not_abort_crossed hdispatch outcome houtcome
  refine ⟨strategy, hmem, ?_⟩
  rw [List.mem_singleton.mp hmem]
  rfl

end Agora.Turns
