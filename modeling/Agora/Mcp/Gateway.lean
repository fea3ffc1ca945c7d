import Agora.Lib.Python
import Agora.Lib.Runs
import Agora.Mcp.Records

namespace Agora.Mcp

/-!
# The gateway

`invoke` suspends in three places: while the call is verified, while it waits for the provider, and while
it cancels.  No lock is held there and nothing is awaited under a lock, so that everything between two of
them is one step.  The task that has started an invocation owns it; the others with its operation id wait for
it too.  An invocation runs until it has an outcome, also when its owner has asked it to end.
-/

/-! ### States -/

/-- What the future of an invocation ends with. -/
inductive Outcome where
  | result (r : ToolResult)
  | failed (error : GatewayError)
  | timedOut
  | cancelled

/-- `provider.invoke`, started for a call. -/
structure Invocation where
  identity : MCPCallIdentity
  outcome : Option Outcome

structure DedupEntry where
  identity : MCPCallIdentity
  result : ToolResult

/-- Where a task is in `invoke`: it waits for an invocation, or cancels, or has ended. -/
inductive Phase where
  | waiting (owner : Bool) (invocation : ℕ)
  | cleaning (owner : Bool) (invocation : ℕ) (error : GatewayError)
  | returned (result : ToolResult)
  | raised (error : GatewayError)

structure CallTask where
  identity : MCPCallIdentity
  phase : Phase

structure GatewayState where
  dedup : List DedupEntry
  inflight : UUID → Option (MCPCallIdentity × ℕ)
  invocations : List Invocation
  tasks : List CallTask

def Invocation.operationId (inv : Invocation) : UUID := inv.identity.operationId

def DedupEntry.operationId (entry : DedupEntry) : UUID := entry.identity.operationId

def CallTask.operationId (task : CallTask) : UUID := task.identity.operationId

def maxDedupEntries : ℕ := 1024

/-! ### Sections without suspension -/

namespace GatewayState

variable (s : GatewayState)

/-- `self._dedup.get(operation_id)`. -/
def dedup? (operationId : UUID) : Option DedupEntry := s.dedup.find? (·.operationId = operationId)

/-- `self._dedup[operation_id] = (identity, result)`, the oldest entry making room. -/
def remember (identity : MCPCallIdentity) (result : ToolResult) : GatewayState :=
  let kept := if maxDedupEntries ≤ s.dedup.length then s.dedup.drop 1 else s.dedup
  { s with dedup := keyedSet DedupEntry.operationId kept ⟨identity, result⟩ }

/-- `self._inflight.pop(operation_id, None)`, in the owner. -/
def pop (owner : Bool) (operationId : UUID) : GatewayState :=
  if owner then { s with inflight := fun k => if k = operationId then none else s.inflight k } else s

def withTask (task : CallTask) : GatewayState := { s with tasks := s.tasks ++ [task] }

def setPhase (t : ℕ) (identity : MCPCallIdentity) (phase : Phase) : GatewayState :=
  { s with tasks := s.tasks.set t ⟨identity, phase⟩ }

/-- The outcome of an invocation, if it has ended. -/
def outcome? (i : ℕ) : Option Outcome := s.invocations[i]?.bind (·.outcome)

/-- From the end of `asyncio.shield` on. -/
def resume (identity : MCPCallIdentity) (owner : Bool) (i : ℕ) : Outcome → GatewayState × Phase
  | .result r =>
    if resultValid identity r then
      ((s.pop owner identity.operationId).remember identity r, .returned r)
    else (s.pop owner identity.operationId,
      .raised (failure .resultInvalid identity "upstream result identity failed"))
  | .failed error => (s.pop owner identity.operationId, .raised error)
  | .timedOut => (s, .cleaning owner i (failure .toolTimeout identity "tool call timed out"))
  | .cancelled =>
    let error := failure .toolCancelled identity "tool call cancelled"
    (s, if owner then .cleaning true i error else .raised error)

def conflict (identity : MCPCallIdentity) : GatewayError :=
  failure .operationConflict identity "operation identity was reused with different call identity"

/-- `asyncio.ensure_future(...)` with its entry. -/
def start (identity : MCPCallIdentity) : GatewayState :=
  { s with
    invocations := s.invocations ++ [⟨identity, none⟩]
    inflight := fun k =>
      if k = identity.operationId then some (identity, s.invocations.length) else s.inflight k }

/-- From the end of the authorization to the next suspension: a future that is done is not waited
    for. -/
def reserve (config : Config) (r : Request) : GatewayState × Phase :=
  let identity := r.call.toMCPCallIdentity
  match guards config r with
  | .error e => (s, .raised e)
  | .ok () =>
    match s.dedup? identity.operationId with
    | some prior =>
      if prior.identity = identity then (s, .returned prior.result) else (s, .raised (conflict identity))
    | none =>
      match s.inflight identity.operationId with
      | some (identity', i) =>
        if identity' = identity then
          match s.outcome? i with
          | some outcome => s.resume identity false i outcome
          | none => (s, .waiting false i)
        else (s, .raised (conflict identity))
      | none => (s.start identity, .waiting true s.invocations.length)

def enter (config : Config) (r : Request) : GatewayState :=
  (s.reserve config r).1.withTask ⟨r.call.toMCPCallIdentity, (s.reserve config r).2⟩

/-- The invocation ends. -/
def finish (i : ℕ) (outcome : Outcome) : GatewayState :=
  { s with invocations := s.invocations.modify i fun inv =>
      { inv with outcome := some (inv.outcome.getD outcome) } }

/-- The task goes on, its invocation having ended. -/
def wake (t : ℕ) : GatewayState :=
  match s.tasks[t]? with
  | some ⟨identity, .waiting owner i⟩ =>
    match s.outcome? i with
    | some outcome =>
      (s.resume identity owner i outcome).1.setPhase t identity (s.resume identity owner i outcome).2
    | none => s
  | _ => s

/-- The task is cancelled where it is suspended. -/
def cancel (t : ℕ) : GatewayState :=
  match s.tasks[t]? with
  | some ⟨identity, .waiting owner i⟩ =>
    s.setPhase t identity (if owner then .cleaning true i (failure .toolCancelled identity "tool call cancelled")
      else .raised (failure .toolCancelled identity "tool call cancelled"))
  | some ⟨identity, .cleaning owner _ _⟩ =>
    (s.pop owner identity.operationId).setPhase t identity (.raised .cancelledError)
  | _ => s

/-- `self._cancel` is done. -/
def cleaned (t : ℕ) : GatewayState :=
  match s.tasks[t]? with
  | some ⟨identity, .cleaning owner _ error⟩ =>
    (s.pop owner identity.operationId).setPhase t identity (.raised error)
  | _ => s

def empty : GatewayState where
  dedup := []
  inflight _ := none
  invocations := []
  tasks := []

end GatewayState

/-! ### Steps -/

/-- What may happen next. -/
inductive GatewayStep where
  | enter (r : Request)
  | finish (invocation : ℕ) (outcome : Outcome)
  | wake (task : ℕ)
  | cancel (task : ℕ)
  | cleaned (task : ℕ)

def perform (config : Config) (step : GatewayStep) (s : GatewayState) : Unit × GatewayState :=
  ((), match step with
    | .enter r => s.enter config r
    | .finish i outcome => s.finish i outcome
    | .wake t => s.wake t
    | .cancel t => s.cancel t
    | .cleaned t => s.cleaned t)

end Agora.Mcp
