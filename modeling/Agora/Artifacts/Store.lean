import Agora.Artifacts.Records

namespace Agora.Artifacts

open Ledger (LedgerAppend LedgerEvent LedgerState)
open Stateful

/-!
# The tables of artifacts and of their graph

A transaction writes three tables and the ledger.  The keys of the tables and the trigger on updates
are part of the model; whatever else the schema refuses, at once or when the transaction commits, is
a parameter.
-/

/-! ### Tables -/

structure ReasoningState where
  artifacts : List ReasoningArtifact
  nodes : List GraphNode
  edges : List GraphEdge
  ledger : LedgerState

/-- Which rows the schema takes beside its keys, and which states a transaction may end in. -/
structure ReasoningDatabase where
  ledger : Ledger.Database
  acceptsArtifact : ReasoningArtifact → Bool
  acceptsNode : GraphNode → Bool
  acceptsEdge : GraphEdge → Bool
  acceptsCommit : ReasoningState → Bool

def databaseError : PyException := ⟨.other, "database error"⟩

/-- `uq_reasoning_artifacts_logical_version`. -/
def ReasoningArtifact.revisionKey (a : ReasoningArtifact) : UUID × UUID × UUID × ℕ :=
  (a.workspaceId, a.sessionId, a.logicalId, a.version)

/-- `uq_graph_nodes_session_ref`. -/
def GraphNode.refKey (v : GraphNode) : UUID × UUID := (v.sessionId, v.refId)

/-- `uq_graph_edges_session_triple`. -/
def GraphEdge.tripleKey (e : GraphEdge) : UUID × UUID × UUID × GraphEdgeType :=
  (e.sessionId, e.fromNode, e.toNode, e.edgeType)

/-- Another status, and the time of it. -/
def ReasoningArtifact.withStatus (a : ReasoningArtifact) (status : LifecycleStatus)
    (updatedAt : Datetime) : ReasoningArtifact :=
  { a with status, updatedAt }

/-- Another status, if it is the artifact with this id. -/
def ReasoningArtifact.marked (artifactId : UUID) (status : LifecycleStatus) (updatedAt : Datetime)
    (a : ReasoningArtifact) : ReasoningArtifact :=
  if a.id = artifactId then a.withStatus status updatedAt else a

@[simp] theorem ReasoningArtifact.withStatus_body (a : ReasoningArtifact) (status : LifecycleStatus)
    (updatedAt : Datetime) : (a.withStatus status updatedAt).toArtifactBody = a.toArtifactBody := rfl

@[simp] theorem ReasoningArtifact.withStatus_status (a : ReasoningArtifact) (status : LifecycleStatus)
    (updatedAt : Datetime) : (a.withStatus status updatedAt).status = status := rfl

/-- The immutable part stays as it is. -/
@[simp] theorem ReasoningArtifact.marked_body (artifactId : UUID) (status : LifecycleStatus)
    (updatedAt : Datetime) (a : ReasoningArtifact) :
    (a.marked artifactId status updatedAt).toArtifactBody = a.toArtifactBody := by
  unfold marked
  split <;> rfl

/-- What `enforce_reasoning_artifact_immutability` allows. -/
def ReasoningArtifact.mayBecome (a : ReasoningArtifact) (status : LifecycleStatus)
    (updatedAt : Datetime) : Bool :=
  (status = a.status || a.status = .active && (status = .superseded || status = .withdrawn))
    && a.updatedAt ≤ updatedAt

namespace ReasoningState

variable (s : ReasoningState)

/-- `get_for_update`. -/
def artifact? (workspaceId sessionId artifactId : UUID) : Option ReasoningArtifact :=
  s.artifacts.find? fun a =>
    a.workspaceId = workspaceId ∧ a.sessionId = sessionId ∧ a.id = artifactId

/-- `node_for_artifact`. -/
def node? (workspaceId sessionId artifactId : UUID) : Option GraphNode :=
  s.nodes.find? fun v =>
    v.workspaceId = workspaceId ∧ v.sessionId = sessionId ∧ v.refId = artifactId

/-- The keys of an artifact are new. -/
def freshArtifact (a : ReasoningArtifact) : Bool :=
  s.artifacts.all fun b => b.id ≠ a.id && b.revisionKey ≠ a.revisionKey

def freshNode (v : GraphNode) : Bool :=
  s.nodes.all fun w => w.id ≠ v.id && w.refKey ≠ v.refKey

def freshEdge (e : GraphEdge) : Bool :=
  s.edges.all fun f => f.id ≠ e.id && f.tripleKey ≠ e.tripleKey

/-- The artifact with this id has another status. -/
def mark (artifactId : UUID) (status : LifecycleStatus) (updatedAt : Datetime) : ReasoningState :=
  { s with artifacts := s.artifacts.map (·.marked artifactId status updatedAt) }

end ReasoningState

/-! ### Statements -/

/-- A write that the database may refuse. -/
def flush (accepts : ReasoningState → Bool) (f : ReasoningState → ReasoningState) :
    Stateful ReasoningState PyException Unit := do
  if ← read accepts then write f else raise databaseError

section Statements

variable (db : ReasoningDatabase)

def addArtifact (a : ReasoningArtifact) : Stateful ReasoningState PyException Unit :=
  flush (fun s => s.freshArtifact a && db.acceptsArtifact a)
    fun s => { s with artifacts := s.artifacts ++ [a] }

def setLifecycle (workspaceId sessionId artifactId : UUID) (status : LifecycleStatus)
    (updatedAt : Datetime) : Stateful ReasoningState PyException Unit := do
  match ← read (·.artifact? workspaceId sessionId artifactId) with
  | none => raise (.valueError ("artifact " ++ artifactId.text
      ++ " does not exist in the tenant session"))
  | some row => flush (fun _ => row.mayBecome status updatedAt) (·.mark artifactId status updatedAt)

def addNode (v : GraphNode) : Stateful ReasoningState PyException Unit :=
  flush (fun s => s.freshNode v && db.acceptsNode v) fun s => { s with nodes := s.nodes ++ [v] }

def addEdge (e : GraphEdge) : Stateful ReasoningState PyException Unit :=
  flush (fun s => s.freshEdge e && db.acceptsEdge e) fun s => { s with edges := s.edges ++ [e] }

/-- The ledger, over the same session. -/
def appendEvent (event : LedgerAppend) : Stateful ReasoningState PyException LedgerEvent :=
  zoom (·.ledger) (fun ledger s => { s with ledger })
    (mapError Ledger.raisedByLedger (Ledger.append db.ledger event))

/-- Statements in a transaction of their own: whatever raises, also at the end, undoes all. -/
def transaction {α : Type} (x : Stateful ReasoningState PyException α) :
    Stateful ReasoningState PyException α :=
  rollback do
    let a ← x
    flush db.acceptsCommit id
    pure a

end Statements

/-! ### What the statements do -/

section Effects

variable {db : ReasoningDatabase} {s s' : ReasoningState}

theorem flush_ok {accepts : ReasoningState → Bool} {f : ReasoningState → ReasoningState} :
    flush accepts f s = (.ok (), s') ↔ accepts s = true ∧ s' = f s := by
  unfold flush
  rw [bind_apply, read_apply, andThen_ok]
  cases h : accepts s
  · simp
  · simp [eq_comm]

theorem flush_bind {α : Type} {accepts : ReasoningState → Bool} {f : ReasoningState → ReasoningState}
    {g : Unit → Stateful ReasoningState PyException α} {a : α} :
    (flush accepts f >>= g) s = (.ok a, s') ↔ accepts s = true ∧ g () (f s) = (.ok a, s') := by
  rw [bind_eq_ok]
  constructor
  · rintro ⟨_, t, h, hrest⟩
    obtain ⟨haccepts, rfl⟩ := flush_ok.mp h
    exact ⟨haccepts, hrest⟩
  · rintro ⟨haccepts, hrest⟩
    exact ⟨(), _, flush_ok.mpr ⟨haccepts, rfl⟩, hrest⟩

theorem setLifecycle_bind {α : Type} {w n id : UUID} {status : LifecycleStatus} {updatedAt : Datetime}
    {g : Unit → Stateful ReasoningState PyException α} {a : α} :
    (setLifecycle w n id status updatedAt >>= g) s = (.ok a, s')
      ↔ (∃ row, s.artifact? w n id = some row ∧ row.mayBecome status updatedAt = true)
        ∧ g () (s.mark id status updatedAt) = (.ok a, s') := by
  unfold setLifecycle
  rw [bind_apply, bind_apply, read_apply, andThen_ok]
  cases h : s.artifact? w n id with
  | none => simp
  | some row =>
    simp only [Option.some.injEq, exists_eq_left']
    exact flush_bind

theorem appendEvent_ok {event : LedgerAppend} {e : LedgerEvent} :
    appendEvent db event s = (.ok e, s') ↔ ∃ ledger,
      Ledger.append db.ledger event s.ledger = (.ok e, ledger) ∧ s' = { s with ledger } := by
  rw [appendEvent, zoom_eq_ok]
  exact exists_congr fun ledger => and_congr_left' mapError_eq_ok

theorem appendEvent_bind {α : Type} {event : LedgerAppend}
    {g : LedgerEvent → Stateful ReasoningState PyException α} {a : α} :
    (appendEvent db event >>= g) s = (.ok a, s') ↔ ∃ e ledger,
      Ledger.append db.ledger event s.ledger = (.ok e, ledger)
        ∧ g e { s with ledger } = (.ok a, s') := by
  rw [bind_eq_ok]
  constructor
  · rintro ⟨e, t, h, hrest⟩
    obtain ⟨ledger, happend, rfl⟩ := appendEvent_ok.mp h
    exact ⟨e, ledger, happend, hrest⟩
  · rintro ⟨e, ledger, happend, hrest⟩
    exact ⟨e, _, appendEvent_ok.mpr ⟨ledger, happend, rfl⟩, hrest⟩

/-- A transaction returns what its statements return, or leaves everything as it was. -/
theorem transaction_cases {α : Type} (db : ReasoningDatabase)
    (x : Stateful ReasoningState PyException α) (s : ReasoningState) :
    (∃ a s', x s = (.ok a, s') ∧ db.acceptsCommit s' = true ∧ transaction db x s = (.ok a, s'))
      ∨ ∃ e, transaction db x s = (.error e, s) := by
  rcases rollback_cases (do let a ← x; flush db.acceptsCommit id; pure a) s with
    ⟨a, s', h, hrun⟩ | ⟨e, -, hrun⟩
  · obtain ⟨b, t, hx, hrest⟩ := bind_eq_ok.mp h
    obtain ⟨_, u, hflush, hpure⟩ := bind_eq_ok.mp hrest
    obtain ⟨haccepts, rfl⟩ := flush_ok.mp hflush
    obtain ⟨hb, rfl⟩ := Prod.mk.inj hpure
    obtain rfl := Except.ok.inj hb
    exact .inl ⟨_, _, hx, haccepts, hrun⟩
  · exact .inr ⟨e, hrun⟩

theorem transaction_ok {α : Type} {x : Stateful ReasoningState PyException α} {a : α} :
    transaction db x s = (.ok a, s') ↔ x s = (.ok a, s') ∧ db.acceptsCommit s' = true := by
  constructor
  · intro h
    rcases transaction_cases db x s with ⟨b, t, hx, haccepts, hrun⟩ | ⟨e, hrun⟩
    · rw [h] at hrun
      obtain ⟨hb, rfl⟩ := Prod.mk.inj hrun
      obtain rfl := Except.ok.inj hb
      exact ⟨hx, haccepts⟩
    · rw [h] at hrun
      cases hrun
  · rintro ⟨hx, haccepts⟩
    refine rollback_ok (bind_eq_ok.mpr ⟨a, s', hx, bind_eq_ok.mpr ⟨(), s', ?_, rfl⟩⟩)
    exact flush_ok.mpr ⟨haccepts, rfl⟩

end Effects

end Agora.Artifacts
