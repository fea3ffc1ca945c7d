import Agora.Turns.Assembly

namespace Agora.Turns

open Artifacts (ReasoningArtifact ReasoningDatabase ReasoningState ArtifactCall ArtifactEventContext
  addArtifact appendEvent databaseError commit)
open Ledger (LedgerAppend LedgerEvent NonBlank jsonPayload)
open Stateful

/-!
# Sessions and what they are bound to

A session is committed with its first objectives and constraints, and its binding names these artifacts
by their ids.  The artifacts may be revised and withdrawn afterwards, and the binding stays as it is:

* `run_ok`: what a session that was created has;
* `artifact?_after`: an artifact is active as long as no call has revised or withdrawn it.
-/

/-! ### Requests and tables -/

structure SessionArtifactCommit where
  artifact : ReasoningArtifact
  nodeId : UUID
  relationshipEdgeIds : List UUID
  label : String
  context : ArtifactEventContext

/-- The arguments of `SessionCommitService.create`.  The contract of the endpoint has checked the kinds. -/
structure SessionRequest where
  sessionId : UUID
  workspaceId : UUID
  problemStatement : String
  objectiveCommits : List SessionArtifactCommit
  constraintCommits : List SessionArtifactCommit
  context : ArtifactEventContext
  objectives_kind : ∀ c ∈ objectiveCommits, c.artifact.kind = .objective
  constraints_kind : ∀ c ∈ constraintCommits, c.artifact.kind = .constraint

/-- A session with the rows of the artifacts it is bound to, beside the tables of the artifacts. -/
structure SessionTables where
  sessions : List SessionBinding
  reasoning : ReasoningState

/-- `complete_affine_binding`, for the artifacts. -/
def bindingViolation (objectives constraints : List UUID) : Option String :=
  if objectives = [] then some "a session requires at least one objective"
  else if ¬ objectives.Nodup then some "objective bindings must be unique"
  else if ¬ constraints.Nodup then some "constraint bindings must be unique"
  else if ∃ id ∈ objectives, id ∈ constraints then
    some "an artifact cannot be both an objective and a constraint"
  else none

/-- `DraftSessionBinding(...)`. -/
def draftSessionBinding (id workspaceId : UUID) (problemStatement : String)
    (objectives constraints : List UUID) : Py SessionBinding := do
  let problemStatement ← nonBlank "must not be blank" problemStatement
  match bindingViolation objectives constraints with
  | some message => .error (.valueError message)
  | none => .ok { id, workspaceId, problemStatement, objectives, constraints }

namespace SessionTables

variable (t : SessionTables)

/-- The row of a session. -/
def session? (workspaceId sessionId : UUID) : Option SessionBinding :=
  t.sessions.find? fun b => b.workspaceId = workspaceId ∧ b.id = sessionId

/-- `SqlAlchemyPhase3SessionStore.get`: the ids are ordered. -/
def get (workspaceId sessionId : UUID) : Py (Option SessionBinding) :=
  match t.session? workspaceId sessionId with
  | none => .ok none
  | some b => some <$> draftSessionBinding b.id b.workspaceId b.problemStatement.text
      (b.objectives.insertionSort (· ≤ ·)) (b.constraints.insertionSort (· ≤ ·))

/-- What the assembler reads, with the sessions of these tables. -/
def ports (others : ContextPorts) : ContextPorts := { others with session := t.get }

end SessionTables

/-! ### Creating a session -/

def sessionCreatedType : NonBlank := ⟨"SESSION_CREATED", .refl true⟩

namespace SessionRequest

variable (q : SessionRequest)

def objectiveIds : List UUID := q.objectiveCommits.map (·.artifact.id)

def constraintIds : List UUID := q.constraintCommits.map (·.artifact.id)

def draft : Py SessionBinding :=
  draftSessionBinding q.sessionId q.workspaceId q.problemStatement q.objectiveIds q.constraintIds

/-- The event of the session. -/
def createdEvent : Py LedgerAppend := do
  let payload ← jsonPayload (sortByKey [(.ofString "session_id", .text q.sessionId.text),
    (.ofString "objective_ids", Artifacts.uuids q.objectiveIds),
    (.ofString "constraint_ids", Artifacts.uuids q.constraintIds)])
  pure
    { id := q.context.eventId
      workspaceId := q.workspaceId
      sessionId := q.sessionId
      eventType := sessionCreatedType
      payloadSchemaVersion := 1
      causationId := q.context.causationId
      correlationId := q.context.correlationId
      actorClass := q.context.actorClass
      actorId := q.context.actorId
      round := 0
      payload
      recordedAt := q.context.recordedAt
      positive_version := Nat.one_pos }

end SessionRequest

section Service

variable (db : ReasoningDatabase)

/-- The loop over the artifacts. -/
def commitAll : List SessionArtifactCommit → Stateful ReasoningState PyException Unit
  | [] => pure ()
  | c :: rest => do
    let _ ← commit db c.artifact c.nodeId c.relationshipEdgeIds c.label c.context
    commitAll rest

/-- `add`: the row of a session that is bound to nothing yet. -/
def addSession (b : SessionBinding) : Stateful SessionTables PyException Unit :=
  writeIf (fun t => t.sessions.all (·.id ≠ b.id)) databaseError
    fun t => { t with sessions := t.sessions ++ [{ b with objectives := [], constraints := [] }] }

/-- `bind_artifacts`: the artifacts are of the session. -/
def bindArtifacts (b : SessionBinding) : Stateful SessionTables PyException Unit :=
  writeIf (fun t => (b.objectives ++ b.constraints).all fun id =>
      (t.reasoning.artifact? b.workspaceId b.id id).isSome) databaseError
    fun t => { t with sessions := t.sessions.map fun row => if row.id = b.id then b else row }

/-- Statements on the tables of the artifacts. -/
def onArtifacts {α : Type} (x : Stateful ReasoningState PyException α) :
    Stateful SessionTables PyException α :=
  zoom (·.reasoning) (fun reasoning t => { t with reasoning }) x

/-- `SessionCommitService.create`. -/
def SessionRequest.statements (q : SessionRequest) : Stateful SessionTables PyException SessionBinding := do
  let binding ← lift q.draft
  addSession binding
  let event ← lift q.createdEvent
  let _ ← onArtifacts (appendEvent db event)
  onArtifacts (commitAll db (q.objectiveCommits ++ q.constraintCommits))
  bindArtifacts binding
  pure binding

/-- The request in its transaction. -/
def SessionRequest.run (q : SessionRequest) : Stateful SessionTables PyException SessionBinding :=
  rollback do
    let binding ← q.statements db
    writeIf (fun t => db.acceptsCommit t.reasoning) databaseError id
    pure binding

/-- What happens to the tables. -/
inductive SessionStep where
  | create (q : SessionRequest)
  | call (c : ArtifactCall)

def perform : SessionStep → Stateful SessionTables PyException Unit
  | .create q => do
    let _ ← q.run db
    pure ()
  | .call c => do
    let _ ← onArtifacts (c.run db)
    pure ()

end Service

/-- The artifact that a call supersedes or withdraws when it returns. -/
def retired : ArtifactCall → Option UUID
  | .commit .. => none
  | .revise artifact .. => artifact.supersedesId
  | .withdraw _ _ artifactId .. => some artifactId

/-- The step returns and has retired the artifact. -/
def Retires (db : ReasoningDatabase) (id : UUID) (t : SessionTables) : SessionStep → Prop
  | .create _ => False
  | .call c => (perform db (.call c) t).1 = .ok () ∧ retired c = some id

/-! ### Sessions that were created -/

section Creation

variable {db : ReasoningDatabase} {s s' : ReasoningState} {t t' : SessionTables}

/-- A text that was read is read again. -/
theorem nonBlank_text (message : String) (text : NonBlank) : nonBlank message text.text = .ok text :=
  dif_pos text.isValid

/-- What a binding that is accepted has. -/
theorem draftSessionBinding_ok {id workspaceId : UUID} {problemStatement : String}
    {objectives constraints : List UUID} {b : SessionBinding}
    (h : draftSessionBinding id workspaceId problemStatement objectives constraints = .ok b) :
    b.id = id ∧ b.workspaceId = workspaceId ∧ b.problemStatement.text = problemStatement
      ∧ b.objectives = objectives ∧ b.constraints = constraints
      ∧ bindingViolation objectives constraints = none := by
  obtain ⟨text, htext, h⟩ := Except.bind_eq_ok.mp h
  cases hviolation : bindingViolation objectives constraints with
  | some message =>
    rw [hviolation] at h
    cases h
  | none =>
    rw [hviolation] at h
    obtain rfl := Except.ok.inj h
    unfold nonBlank validText at htext
    split_ifs at htext
    obtain rfl := Except.ok.inj htext
    exact ⟨rfl, rfl, rfl, rfl, rfl, rfl⟩

theorem bindingViolation_eq_none {objectives constraints : List UUID} :
    bindingViolation objectives constraints = none ↔ objectives ≠ [] ∧ objectives.Nodup
      ∧ constraints.Nodup ∧ ∀ id ∈ objectives, id ∉ constraints := by
  unfold bindingViolation
  split_ifs with hempty hobjectives hconstraints hshared <;> simp_all

/-- The order of the ids does not matter. -/
theorem bindingViolation_sorted {objectives constraints : List UUID}
    (h : bindingViolation objectives constraints = none) :
    bindingViolation (objectives.insertionSort (· ≤ ·)) (constraints.insertionSort (· ≤ ·)) = none := by
  obtain ⟨hne, hobjectives, hconstraints, hdisjoint⟩ := bindingViolation_eq_none.mp h
  have hperm := List.perm_insertionSort (· ≤ ·) objectives
  have hperm' := List.perm_insertionSort (· ≤ ·) constraints
  refine bindingViolation_eq_none.mpr ⟨?_, hperm.nodup_iff.mpr hobjectives, hperm'.nodup_iff.mpr hconstraints,
    fun id hid hid' => hdisjoint id (hperm.mem_iff.mp hid) (hperm'.mem_iff.mp hid')⟩
  intro hnil
  rw [hnil] at hperm
  exact hne hperm.symm.eq_nil

/-- The artifacts are added one after another, and they are active. -/
theorem commitAll_ok {items : List SessionArtifactCommit} (h : Artifacts.Sound s)
    (hrun : commitAll db items s = (.ok (), s')) :
    Artifacts.Sound s' ∧ s'.artifacts = s.artifacts ++ items.map (·.artifact)
      ∧ ∀ c ∈ items, c.artifact.status = .active := by
  induction items generalizing s with
  | nil =>
    obtain ⟨-, rfl⟩ := Prod.mk.inj hrun
    exact ⟨h, (List.append_nil _).symm, fun c hc => absurd hc List.not_mem_nil⟩
  | cons c items ih =>
    obtain ⟨r, mid, hcommit, hrest⟩ := bind_eq_ok.mp hrun
    obtain ⟨⟨-, -, hactive⟩, node, edges, event, e, ledger, -, -, -, -, heq⟩ := Artifacts.commit_ok.mp hcommit
    obtain ⟨hsound, hartifacts, hall⟩ := ih (h.commit hcommit).1 hrest
    refine ⟨hsound, ?_, List.forall_mem_cons.mpr ⟨hactive, hall⟩⟩
    rw [hartifacts, heq]
    show s.artifacts ++ [c.artifact] ++ _ = _
    rw [List.append_assoc, List.map_cons, List.singleton_append]

/-- An event of another type keeps the tables. -/
theorem sound_appendEvent {event : LedgerAppend} {e : LedgerEvent} (h : Artifacts.Sound s)
    (htype : event.eventType ∉ [Artifacts.committedType, Artifacts.revisedType, Artifacts.withdrawnType])
    (hrun : appendEvent db event s = (.ok e, s')) :
    Artifacts.Sound s' ∧ s'.artifacts = s.artifacts := by
  obtain ⟨ledger, happend, rfl⟩ := Artifacts.appendEvent_ok.mp hrun
  simp only [List.mem_cons, List.not_mem_nil, or_false, not_or] at htype
  refine ⟨⟨⟨h.ids, h.nodes, h.edges, fun f hf hwritten => ?_, fun f hf hwithdrawn => ?_⟩, h.chain⟩, rfl⟩
  · rcases Ledger.append_eq_ok happend with ⟨rfl, -⟩ | ⟨rfl, -, rfl⟩
    · exact h.written f hf hwritten
    · rcases List.mem_append.mp hf with hf | hf
      · exact h.written f hf hwritten
      · obtain rfl := List.mem_singleton.mp hf
        rcases hwritten with hwritten | hwritten
        · exact absurd hwritten htype.1
        · exact absurd hwritten htype.2.1
  · rcases Ledger.append_eq_ok happend with ⟨rfl, -⟩ | ⟨rfl, -, rfl⟩
    · exact h.withdrawn f hf hwithdrawn
    · rcases List.mem_append.mp hf with hf | hf
      · exact h.withdrawn f hf hwithdrawn
      · obtain rfl := List.mem_singleton.mp hf
        exact absurd hwithdrawn htype.2.2

theorem createdEvent_ok {q : SessionRequest} {event : LedgerAppend} (h : q.createdEvent = .ok event) :
    event.eventType = sessionCreatedType ∧ event.id = q.context.eventId ∧ event.workspaceId = q.workspaceId
      ∧ event.sessionId = q.sessionId ∧ event.payloadSchemaVersion = 1 ∧ event.round = 0 := by
  obtain ⟨payload, -, h⟩ := Except.bind_eq_ok.mp h
  obtain rfl := Except.ok.inj h
  exact ⟨rfl, rfl, rfl, rfl, rfl, rfl⟩

/-- The row of a session once it is bound. -/
def SessionBinding.bind (b row : SessionBinding) : SessionBinding := if row.id = b.id then b else row

/-- What a request writes that returns. -/
structure Creates (db : ReasoningDatabase) (q : SessionRequest) (t : SessionTables) (b : SessionBinding)
    (event : LedgerAppend) (e : LedgerEvent) (s s' : ReasoningState) : Prop where
  drafted : q.draft = .ok b
  fresh : ∀ row ∈ t.sessions, row.id ≠ b.id
  built : q.createdEvent = .ok event
  appended : appendEvent db event t.reasoning = (.ok e, s)
  committed : commitAll db (q.objectiveCommits ++ q.constraintCommits) s = (.ok (), s')
  owned : ∀ id ∈ b.objectives ++ b.constraints, (s'.artifact? b.workspaceId b.id id).isSome
  accepted : db.acceptsCommit s' = true

theorem run_ok {q : SessionRequest} {b : SessionBinding} : q.run db t = (.ok b, t')
    ↔ ∃ event e s s', Creates db q t b event e s s'
      ∧ t' = ⟨(t.sessions ++ [{ b with objectives := [], constraints := [] }]).map b.bind, s'⟩ := by
  constructor
  · intro h
    obtain ⟨b', mid, hrun, hend⟩ := bind_eq_ok.mp (rollback_eq_ok.mp h)
    obtain ⟨haccepted, hend⟩ := writeIf_bind_eq_ok.mp hend
    obtain ⟨hb, rfl⟩ := Prod.mk.inj hend
    obtain rfl := Except.ok.inj hb
    obtain ⟨b, hdrafted, h⟩ := lift_bind_eq_ok.mp hrun
    obtain ⟨hfresh, h⟩ := writeIf_bind_eq_ok.mp h
    obtain ⟨event, hbuilt, h⟩ := lift_bind_eq_ok.mp h
    obtain ⟨e, _, happended, h⟩ := bind_eq_ok.mp h
    obtain ⟨s, happend, rfl⟩ := zoom_eq_ok.mp happended
    obtain ⟨_, _, hcommitted, h⟩ := bind_eq_ok.mp h
    obtain ⟨s', hcommit, rfl⟩ := zoom_eq_ok.mp hcommitted
    obtain ⟨howned, h⟩ := writeIf_bind_eq_ok.mp h
    obtain ⟨hb, rfl⟩ := Prod.mk.inj h
    obtain rfl := Except.ok.inj hb
    refine ⟨event, e, s, s', ⟨hdrafted, ?_, hbuilt, happend, hcommit, ?_, haccepted⟩, rfl⟩
    · simpa using hfresh
    · exact List.all_eq_true.mp howned
  · rintro ⟨event, e, s, s', h, rfl⟩
    refine rollback_eq_ok.mpr (bind_eq_ok.mpr ⟨b, _, ?_, writeIf_bind_eq_ok.mpr ⟨h.accepted, rfl⟩⟩)
    refine lift_bind_eq_ok.mpr ⟨b, h.drafted, writeIf_bind_eq_ok.mpr ⟨by simpa using h.fresh, ?_⟩⟩
    refine lift_bind_eq_ok.mpr ⟨event, h.built, bind_eq_ok.mpr ⟨e, _, zoom_eq_ok.mpr ⟨s, h.appended, rfl⟩, ?_⟩⟩
    refine bind_eq_ok.mpr ⟨(), _, zoom_eq_ok.mpr ⟨s', h.committed, rfl⟩, ?_⟩
    exact writeIf_bind_eq_ok.mpr ⟨List.all_eq_true.mpr h.owned, rfl⟩

/-- A request returns or leaves everything as it was. -/
theorem run_cases (db : ReasoningDatabase) (q : SessionRequest) (t : SessionTables) :
    (∃ b t', q.run db t = (.ok b, t')) ∨ ∃ e, q.run db t = (.error e, t) := by
  rcases rollback_cases _ t with ⟨b, t', -, h⟩ | ⟨e, -, h⟩
  · exact .inl ⟨b, t', h⟩
  · exact .inr ⟨e, h⟩

/-- The tables of the artifacts after a session was created. -/
theorem Creates.reasoning {q : SessionRequest} {b : SessionBinding} {event : LedgerAppend} {e : LedgerEvent}
    (h : Creates db q t b event e s s') (hs : Artifacts.Sound t.reasoning) :
    Artifacts.Sound s' ∧ s'.artifacts = t.reasoning.artifacts
        ++ (q.objectiveCommits ++ q.constraintCommits).map (·.artifact)
      ∧ ∀ c ∈ q.objectiveCommits ++ q.constraintCommits, c.artifact.status = .active := by
  have htype : event.eventType ∉ [Artifacts.committedType, Artifacts.revisedType, Artifacts.withdrawnType] := by
    rw [(createdEvent_ok h.built).1]
    decide
  obtain ⟨hsound, hsame⟩ := sound_appendEvent hs htype h.appended
  rw [← hsame]
  exact commitAll_ok hsound h.committed

/-- What a session is bound to: its artifacts are there, and active. -/
theorem Creates.artifact? {q : SessionRequest} {b : SessionBinding} {event : LedgerAppend} {e : LedgerEvent}
    (h : Creates db q t b event e s s') (hs : Artifacts.Sound t.reasoning) {c : SessionArtifactCommit}
    (hc : c ∈ q.objectiveCommits ++ q.constraintCommits) :
    s'.artifact? b.workspaceId b.id c.artifact.id = some c.artifact ∧ c.artifact.status = .active := by
  obtain ⟨hsound, hartifacts, hactive⟩ := h.reasoning hs
  obtain ⟨-, -, -, hobjectives, hconstraints, -⟩ := draftSessionBinding_ok h.drafted
  have hbound : c.artifact.id ∈ b.objectives ++ b.constraints := by
    rw [hobjectives, hconstraints, SessionRequest.objectiveIds, SessionRequest.constraintIds, ← List.map_append]
    exact List.mem_map_of_mem hc
  obtain ⟨a, ha⟩ := Option.isSome_iff_exists.mp (h.owned _ hbound)
  obtain ⟨hmem, -, -, hid⟩ := Artifacts.artifact?_some ha
  have hadded : c.artifact ∈ s'.artifacts := by
    rw [hartifacts]
    exact List.mem_append_right _ (List.mem_map_of_mem hc)
  obtain rfl : a = c.artifact := hsound.eq_of_id hmem hadded hid
  exact ⟨ha, hactive c hc⟩

/-- The row of the new session is the only one with its id. -/
theorem Creates.session? {q : SessionRequest} {b : SessionBinding} {event : LedgerAppend} {e : LedgerEvent}
    (h : Creates db q t b event e s s') :
    SessionTables.session? ⟨(t.sessions ++ [{ b with objectives := [], constraints := [] }]).map b.bind, s'⟩
      b.workspaceId b.id = some b := by
  have hold : t.sessions.map b.bind = t.sessions := by
    rw [List.map_congr_left (g := id), List.map_id]
    intro row hrow
    exact if_neg (h.fresh row hrow)
  have hnew : b.bind { b with objectives := [], constraints := [] } = b := if_pos rfl
  unfold SessionTables.session?
  rw [List.map_append, hold, List.map_singleton, hnew, List.find?_append, List.find?_eq_none.mpr]
  · simp
  · intro row hrow
    simpa using fun _ => h.fresh row hrow

/-- The rows of the other sessions stay as they are. -/
theorem Creates.session?_of_some {q : SessionRequest} {b row : SessionBinding} {event : LedgerAppend}
    {e : LedgerEvent} (h : Creates db q t b event e s s') {w n : UUID} (hrow : t.session? w n = some row) :
    SessionTables.session? ⟨(t.sessions ++ [{ b with objectives := [], constraints := [] }]).map b.bind, s'⟩
      w n = some row := by
  have hold : t.sessions.map b.bind = t.sessions := by
    rw [List.map_congr_left (g := id), List.map_id]
    intro row hrow
    exact if_neg (h.fresh row hrow)
  unfold SessionTables.session? at hrow ⊢
  rw [List.map_append, hold, List.find?_append, hrow]
  rfl

end Creation

/-! ### Runs -/

section Runs

variable {db : ReasoningDatabase} {s s' : ReasoningState} {t : SessionTables}

theorem perform_create (q : SessionRequest) : (perform db (.create q) t).2 = (q.run db t).2 := by
  show (andThen (fun _ => pure ()) (q.run db t)).2 = (q.run db t).2
  rcases q.run db t with ⟨_ | _, _⟩ <;> rfl

theorem perform_call (c : ArtifactCall) :
    (perform db (.call c) t).2 = { t with reasoning := (c.run db t.reasoning).2 } := by
  show (andThen (fun _ => pure ()) (onArtifacts (c.run db) t)).2 = _
  unfold onArtifacts
  rw [zoom_apply]
  rcases c.run db t.reasoning with ⟨_ | _, _⟩ <;> rfl

theorem perform_call_returns {c : ArtifactCall} :
    (perform db (.call c) t).1 = .ok () ↔ ∃ r, (c.run db t.reasoning).1 = .ok r := by
  show (andThen (fun _ => pure ()) (onArtifacts (c.run db) t)).1 = .ok () ↔ _
  unfold onArtifacts
  rw [zoom_apply]
  rcases c.run db t.reasoning with ⟨e | r, _⟩
  · simp
  · simp

theorem sound_perform (h : Artifacts.Sound t.reasoning) (step : SessionStep) :
    Artifacts.Sound (perform db step t).2.reasoning := by
  cases step with
  | create q =>
    rw [perform_create]
    rcases run_cases db q t with ⟨b, t', hrun⟩ | ⟨e, hrun⟩
    · obtain ⟨event, e, s, s', hcreates, rfl⟩ := run_ok.mp hrun
      rw [hrun]
      exact (hcreates.reasoning h).1
    · rw [hrun]
      exact h
  | call c =>
    rw [perform_call]
    exact (h.run c).1

theorem sound_after (h : Artifacts.Sound t.reasoning) (steps : List SessionStep) :
    Artifacts.Sound (after (perform db) t steps).reasoning :=
  @after_invariant _ _ _ _ (fun t : SessionTables => Artifacts.Sound t.reasoning) (fun _ _ => True)
    (fun _ step h _ => sound_perform h step) _ h _ (along_of_forall (fun _ _ => trivial) _ _)

theorem session?_after {w n : UUID} {row : SessionBinding} (h : t.session? w n = some row)
    (steps : List SessionStep) : (after (perform db) t steps).session? w n = some row := by
  refine @after_invariant _ _ _ _ (fun t : SessionTables => t.session? w n = some row) (fun _ _ => True)
    (fun t step h _ => ?_) _ h _ (along_of_forall (fun _ _ => trivial) _ _)
  cases step with
  | create q =>
    rw [perform_create]
    rcases run_cases db q t with ⟨b, t', hrun⟩ | ⟨e, hrun⟩
    · obtain ⟨event, e, s, s', hcreates, rfl⟩ := run_ok.mp hrun
      rw [hrun]
      exact hcreates.session?_of_some h
    · rw [hrun]
      exact h
  | call c =>
    rw [perform_call]
    exact h

/-! ### Artifacts that stay active -/

theorem artifact?_mark (id' : UUID) (status : Artifacts.LifecycleStatus) (updatedAt : Datetime) (w n id : UUID) :
    (s.mark id' status updatedAt).artifact? w n id
      = (s.artifact? w n id).map (·.marked id' status updatedAt) := by
  unfold ReasoningState.artifact? ReasoningState.mark
  rw [List.find?_map]
  congr 2
  ext a
  simp

/-- An artifact after another one, or itself, was given a status. -/
theorem exists_marked {w n id : UUID} {a : ReasoningArtifact} (ha : s.artifact? w n id = some a) (id' : UUID)
    {status : Artifacts.LifecycleStatus} (hstatus : status ≠ .active) (updatedAt : Datetime) :
    ∃ b, (s.mark id' status updatedAt).artifact? w n id = some b ∧ b.toArtifactBody = a.toArtifactBody
      ∧ (b.status = .active ↔ a.status = .active ∧ some id' ≠ some id) := by
  obtain ⟨-, -, -, hid⟩ := Artifacts.artifact?_some ha
  refine ⟨a.marked id' status updatedAt, ?_, ReasoningArtifact.marked_body _ _ _ _, ?_⟩
  · rw [artifact?_mark, ha]
    rfl
  · unfold ReasoningArtifact.marked
    split_ifs with heq
    · simp [hstatus, ← hid, heq]
    · simp [← hid, Ne.symm heq]

/-- An artifact after a call that returns. -/
theorem artifact?_statements {c : ArtifactCall} {r : Artifacts.ArtifactWriteResult}
    (hrun : c.statements db s = (.ok r, s')) {w n id : UUID} {a : ReasoningArtifact}
    (ha : s.artifact? w n id = some a) :
    ∃ b, s'.artifact? w n id = some b ∧ b.toArtifactBody = a.toArtifactBody
      ∧ (b.status = .active ↔ a.status = .active ∧ retired c ≠ some id) := by
  cases c with
  | commit artifact nodeId edgeIds label context =>
    obtain ⟨-, node, edges, event, e, ledger, -, -, -, -, rfl⟩ := Artifacts.commit_ok.mp hrun
    exact ⟨a, Artifacts.artifact?_append ha [artifact], rfl, by simp [retired]⟩
  | revise artifact nodeId edgeId edgeIds label reason context =>
    obtain ⟨previous, previousNode, node, edges, edge, event, e, ledger, hrevises, -, -, -, rfl⟩ :=
      Artifacts.revise_ok.mp hrun
    have hsuperseded : Artifacts.LifecycleStatus.superseded ≠ .active := by decide
    obtain ⟨b, hb, hbody, hactive⟩ := exists_marked ha previous.id hsuperseded context.recordedAt
    refine ⟨b, Artifacts.artifact?_append hb [artifact], hbody, ?_⟩
    rw [hactive, retired, hrevises.supersedes]
  | withdraw w' n' id' reason warrants context =>
    obtain ⟨artifact, event, e, ledger, -, -, -, -, rfl⟩ := Artifacts.withdraw_ok.mp hrun
    have hwithdrawn : Artifacts.LifecycleStatus.withdrawn ≠ .active := by decide
    exact exists_marked ha id' hwithdrawn context.recordedAt

/-- **Step.**  An artifact stays as it is, and active unless the step retires it. -/
theorem artifact?_perform {w n id : UUID} {a : ReasoningArtifact} (hs : Artifacts.Sound t.reasoning)
    (ha : t.reasoning.artifact? w n id = some a) (step : SessionStep) :
    ∃ b, (perform db step t).2.reasoning.artifact? w n id = some b ∧ b.toArtifactBody = a.toArtifactBody
      ∧ (b.status = .active ↔ a.status = .active ∧ ¬ Retires db id t step) := by
  cases step with
  | create q =>
    rw [perform_create]
    rcases run_cases db q t with ⟨b, t', hrun⟩ | ⟨e, hrun⟩
    · obtain ⟨event, e, s, s', hcreates, rfl⟩ := run_ok.mp hrun
      obtain ⟨-, hartifacts, -⟩ := hcreates.reasoning hs
      rw [hrun]
      refine ⟨a, ?_, rfl, by simp [Retires]⟩
      unfold ReasoningState.artifact? at ha ⊢
      rw [hartifacts, List.find?_append, ha]
      rfl
    · rw [hrun]
      exact ⟨a, ha, rfl, by simp [Retires]⟩
  | call c =>
    simp only [Retires, perform_call_returns]
    rw [perform_call]
    rcases Artifacts.transaction_cases db (c.statements db) t.reasoning with ⟨r, s', hx, -, hrun⟩ | ⟨e, hrun⟩
    · have hrun : c.run db t.reasoning = (.ok r, s') := hrun
      obtain ⟨b, hb, hbody, hactive⟩ := artifact?_statements hx ha
      rw [hrun]
      exact ⟨b, hb, hbody, by simp [hactive]⟩
    · have hrun : c.run db t.reasoning = (.error e, t.reasoning) := hrun
      rw [hrun]
      exact ⟨a, ha, rfl, by simp⟩

/-- **Run.**  An artifact stays as it is, and active as long as no step retires it. -/
theorem artifact?_after {w n id : UUID} {a : ReasoningArtifact} (hs : Artifacts.Sound t.reasoning)
    (ha : t.reasoning.artifact? w n id = some a) (steps : List SessionStep) :
    ∃ b, (after (perform db) t steps).reasoning.artifact? w n id = some b
      ∧ b.toArtifactBody = a.toArtifactBody
      ∧ (b.status = .active ↔ a.status = .active
        ∧ Along (perform db) (fun t step => ¬ Retires db id t step) t steps) := by
  induction steps generalizing t a with
  | nil => exact ⟨a, ha, rfl, (and_iff_left trivial).symm⟩
  | cons step steps ih =>
    obtain ⟨b, hb, hbody, hactive⟩ := @artifact?_perform db t w n id a hs ha step
    obtain ⟨c, hc, hbody', hactive'⟩ := ih (sound_perform hs step) hb
    refine ⟨c, hc, hbody'.trans hbody, ?_⟩
    rw [hactive', hactive]
    exact and_assoc

end Runs

end Agora.Turns
