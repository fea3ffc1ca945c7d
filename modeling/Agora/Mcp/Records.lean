import Agora.Ledger.Event
import Agora.Lib.Calendar
import Agora.Lib.Json
import Agora.Marl.Values

namespace Agora.Mcp

open Ledger (ActorClass)
open Marl (Hash)

/-!
# Tool calls

The values of the gateway, the checks that a call has to pass before the gateway looks at its operation
id, and the check of a result.  What an operation is called with is its `MCPCallIdentity`.
-/

/-! ### Failures -/

inductive ToolFailureCode where
  | authRequired
  | forbidden
  | toolNotFound
  | argumentInvalid
  | toolTimeout
  | toolCancelled
  | upstreamUnavailable
  | resultInvalid
  | operationConflict
deriving DecidableEq, Repr

structure ToolFailure where
  code : ToolFailureCode
  detail : String
  retryable : Bool
  operationId : UUID
  correlationId : UUID
deriving DecidableEq

/-- What a call may raise: a failure of the gateway, a denied context, a failure that the provider reports,
    `CancelledError`, and anything else. -/
inductive GatewayError where
  | tool (failure : ToolFailure)
  | invalidContext (operationId correlationId : UUID)
  | upstream (code : String)
  | cancelledError
  | other (message : String)
deriving DecidableEq

/-! ### Calls -/

structure UpstreamServerRef where
  serverId : String
  version : ℕ
  transport : String := "STREAMABLE_HTTP"
  endpoint : String
  manifestHash : Hash
deriving DecidableEq

structure MCPCallContext where
  workloadSubject : String
  workspaceId : UUID
  sessionId : UUID
  agentDefinitionId : UUID
  agentDefinitionVersion : ℕ
  initiatingActorClass : Option ActorClass := none
  initiatingActorId : Option UUID := none
  operationId : UUID
  correlationId : UUID
  round : ℕ
  deadlineAt : Datetime
deriving DecidableEq

structure MCPCallIdentity where
  server : UpstreamServerRef
  toolName : String
  context : MCPCallContext
  argsHash : Hash
deriving DecidableEq

/-- A call is its identity and the arguments that the hash is of. -/
structure ToolCall extends MCPCallIdentity where
  arguments : List (PyStr × Json)

structure ToolContent where
  isJson : Bool
  value : Json

/-- `others` is the dump of what the gateway passes on unread. -/
structure ToolResult where
  operationId : UUID
  correlationId : UUID
  server : UpstreamServerRef
  toolName : String
  content : List ToolContent
  sourceUri : Option String
  untrusted : Bool
  others : Json

structure WorkloadPrincipal where
  subject : String
  audience : String
  expiresAt : ℕ

/-- What the token verifier answers. -/
inductive Verified where
  | principal (p : WorkloadPrincipal)
  | invalidToken
  | raised (message : String)

/-- What the context authority answers. -/
inductive ContextCheck where
  | valid
  | denied
  | raised (message : String)

/-- A call of `invoke`, with the answers and the clocks that it reads. -/
structure Request where
  token : String
  call : ToolCall
  verified : Verified
  contextCheck : ContextCheck
  epoch : ℕ
  now : Datetime

/-- The gateway's own values. -/
structure Config where
  fixtureServer : UpstreamServerRef
  allowedSubject : String := "reasoning-worker"

def MCPCallIdentity.operationId (identity : MCPCallIdentity) : UUID := identity.context.operationId

/-! ### Checks -/

/-- `_failure`. -/
def failure (code : ToolFailureCode) (identity : MCPCallIdentity) (detail : String) : GatewayError :=
  .tool { code, detail, retryable := code = .toolTimeout || code = .upstreamUnavailable,
          operationId := identity.context.operationId, correlationId := identity.context.correlationId }

/-- Go on if the condition holds. -/
def ensure (p : Prop) [Decidable p] (e : GatewayError) : Except GatewayError Unit :=
  if p then .ok () else .error e

/-- `_verify`. -/
def verify (config : Config) (r : Request) : Except GatewayError Unit := do
  let identity := r.call.toMCPCallIdentity
  ensure (r.token ≠ "") (failure .authRequired identity "workload authentication required")
  match r.verified with
  | .raised message => .error (.other message)
  | .invalidToken => .error (failure .authRequired identity "workload authentication failed")
  | .principal p =>
    ensure (p.audience = "mcp-gateway" ∧ p.subject = r.call.context.workloadSubject
        ∧ p.subject = config.allowedSubject)
      (failure .forbidden identity "workload identity is not authorized")
    ensure (r.epoch < p.expiresAt) (failure .authRequired identity "workload token expired")

/-- `_authorize`. -/
def authorize (r : Request) : Except GatewayError Unit :=
  match r.contextCheck with
  | .valid => .ok ()
  | .denied => .error (.invalidContext r.call.context.operationId r.call.context.correlationId)
  | .raised message => .error (.other message)

def forbiddenContextArguments : List PyStr :=
  ["workload_subject", "workspace_id", "session_id", "agent_definition_id", "agent_definition_version",
    "operation_id", "correlation_id", "round", "deadline_at", "timeout_s"].map PyStr.ofString

/-- `_fixture_arguments_valid`. -/
def fixtureArgumentsValid (arguments : List (PyStr × Json)) : Bool :=
  (arguments.all fun entry => entry.1 ∈ ["value", "delay_ms", "fail"].map PyStr.ofString)
    && (match arguments.lookup (PyStr.ofString "value") with
      | some (.str s) => s.length ≤ 128
      | _ => false)
    && (match arguments.lookup (PyStr.ofString "delay_ms") with
      | none => true
      | some (.int n) => 0 ≤ n && n ≤ 30000
      | some _ => false)
    && (match arguments.lookup (PyStr.ofString "fail") with
      | none | some (.bool _) => true
      | some _ => false)

/-- The checks of `invoke` before its first lock. -/
def guards (config : Config) (r : Request) : Except GatewayError Unit := do
  let identity := r.call.toMCPCallIdentity
  verify config r
  authorize r
  ensure (r.call.server = config.fixtureServer) (failure .forbidden identity "fixture authorization failed")
  ensure (r.call.toolName = "fixture.read_echo") (failure .toolNotFound identity "tool not found")
  ensure (∀ entry ∈ r.call.arguments, entry.1 ∉ forbiddenContextArguments)
    (failure .argumentInvalid identity "trusted context fields are not tool arguments")
  ensure (fixtureArgumentsValid r.call.arguments = true)
    (failure .argumentInvalid identity "tool arguments are invalid")
  ensure (r.now < r.call.context.deadlineAt) (failure .toolTimeout identity "trusted deadline expired")

/-- `_fixture_result_valid`. -/
def fixtureResultValid : Json → Bool
  | .obj entries =>
    (match entries.lookup (PyStr.ofString "fixture") with
      | some (.bool b) => b
      | _ => false)
    && (match entries.lookup (PyStr.ofString "value") with
      | some (.str _) => true
      | _ => false)
  | _ => false

/-- The check of a result, which is the same for all calls with one identity. -/
def resultValid (identity : MCPCallIdentity) (result : ToolResult) : Bool :=
  result.operationId = identity.context.operationId
    && result.correlationId = identity.context.correlationId
    && result.server = identity.server
    && result.toolName = identity.toolName
    && result.untrusted
    && result.sourceUri = some identity.server.endpoint
    && (match result.content with
      | [content] => content.isJson && fixtureResultValid content.value
      | _ => false)

end Agora.Mcp
