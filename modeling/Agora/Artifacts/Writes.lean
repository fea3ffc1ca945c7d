import Agora.Artifacts.Versions

namespace Agora.Artifacts

open Ledger (LedgerAppend LedgerEvent NonBlank uuidOrNull)

/-!
# The writes of a run

A call that returns has made one write: a row more, or a row withdrawn, and one event of the ledger.
The rows and the events of a run are those of its writes, in their order (`written_after`).
-/

/-! ### Calls that return -/

/-- A call that has returned, with its result. -/
abbrev ArtifactWrite := ArtifactCall × ArtifactWriteResult

/-- The calls of a run that return. -/
def writes (db : ReasoningDatabase) (s : ReasoningState) (calls : List ArtifactCall) :
    List ArtifactWrite :=
  (calls.zip (answers (execCall db) s calls)).filterMap fun (call, answer) =>
    answer.toOption.map (call, ·)

namespace ArtifactCall

def context : ArtifactCall → ArtifactEventContext
  | .commit _ _ _ _ context => context
  | .revise _ _ _ _ _ _ context => context
  | .withdraw _ _ _ _ _ context => context

/-- The version that a revision takes the place of. -/
def supersedesId : ArtifactCall → Option UUID
  | .revise artifact .. => artifact.supersedesId
  | .commit .. | .withdraw .. => none

def warrantArtifactIds : ArtifactCall → List UUID
  | .withdraw _ _ _ _ warrantArtifactIds _ => warrantArtifactIds
  | .commit .. | .revise .. => []

/-- What the payload of the event has beside the entries of every event. -/
def detail : ArtifactCall → List (PyStr × Json)
  | .commit .. => []
  | .revise artifact _ _ _ _ reason _ =>
    [(.ofString "supersedes_id", uuidOrNull artifact.supersedesId),
      (.ofString "reason", .text reason)]
  | .withdraw _ _ _ reason warrantArtifactIds _ =>
    [(.ofString "reason", .text reason),
      (.ofString "warrant_artifact_ids", uuids warrantArtifactIds)]

end ArtifactCall

/-- The row that a write adds. -/
def ArtifactWrite.added : ArtifactWrite → List ArtifactBody
  | (.commit .., r) | (.revise .., r) => [r.artifact.toArtifactBody]
  | (.withdraw .., _) => []

/-- The immutable parts of the rows. -/
def ReasoningState.bodies (s : ReasoningState) : List ArtifactBody :=
  s.artifacts.map (·.toArtifactBody)

@[simp] theorem bodies_mark (s : ReasoningState) (id : UUID) (status : LifecycleStatus)
    (updatedAt : Datetime) : (s.mark id status updatedAt).bodies = s.bodies := by
  simp [ReasoningState.bodies, ReasoningState.mark, Function.comp_def]

@[simp] theorem bodies_extend (s : ReasoningState) (artifact : ReasoningArtifact) (node : GraphNode)
    (edges : List GraphEdge) (ledger : Ledger.LedgerState) :
    (s.extend artifact node edges ledger).bodies = s.bodies ++ [artifact.toArtifactBody] := by
  simp [ReasoningState.bodies, ReasoningState.extend]

/-! ### One write -/

variable {db : ReasoningDatabase} {s s' : ReasoningState}

/-- What a call that returns has written. -/
structure Wrote (db : ReasoningDatabase) (s s' : ReasoningState) (w : ArtifactWrite) : Prop where
  appended : ∃ event, artifactEvent w.2.artifact w.1.context w.1.eventType
      (w.2.artifact.eventEntries ++ w.1.detail) = .ok event
    ∧ Ledger.append db.ledger event s.ledger = (.ok w.2.event, s'.ledger)
  bodies : s'.bodies = s.bodies ++ w.added
  body : w.2.artifact.toArtifactBody ∈ s'.bodies
  artifactId : w.2.artifact.id = w.1.artifactId

theorem wrote_statements {call : ArtifactCall} {r : ArtifactWriteResult}
    (hrun : call.statements db s = (.ok r, s')) : Wrote db s s' (call, r) := by
  cases call with
  | commit artifact nodeId edgeIds label context =>
    obtain ⟨-, node, edges, event, e, ledger, -, hevent, happend, rfl, rfl⟩ := commit_ok.mp hrun
    refine ⟨⟨event, ?_, happend⟩, bodies_extend _ _ _ _ _, by simp, rfl⟩
    show artifactEvent artifact context committedType (artifact.eventEntries ++ []) = _
    rw [List.append_nil]
    exact hevent
  | revise artifact nodeId edgeId edgeIds label reason context =>
    obtain ⟨previous, previousNode, node, edges, edge, event, e, ledger, hr, hevent, happend, rfl,
      rfl⟩ := revise_ok.mp hrun
    have hentries : revisionEntries artifact previous reason = artifact.eventEntries
        ++ (ArtifactCall.revise artifact nodeId edgeId edgeIds label reason context).detail := by
      simp only [revisionEntries, ArtifactCall.detail, hr.supersedes, uuidOrNull]
    rw [hentries] at hevent
    refine ⟨⟨event, hevent, happend⟩, ?_, by simp, rfl⟩
    rw [bodies_extend, bodies_mark]
    rfl
  | withdraw w n id reason warrants context =>
    obtain ⟨artifact, event, e, ledger, hw, hevent, happend, rfl, rfl⟩ := withdraw_ok.mp hrun
    obtain ⟨hmem, -, -, rfl⟩ := artifact?_some hw.found
    have hbodies :
        ReasoningState.bodies { s.mark artifact.id .withdrawn context.recordedAt with ledger }
          = s.bodies := bodies_mark s _ _ _
    refine ⟨⟨event, hevent, happend⟩, ?_, ?_, rfl⟩
    · rw [hbodies]
      exact (List.append_nil _).symm
    · rw [hbodies]
      exact List.mem_map.mpr ⟨artifact, hmem, rfl⟩

/-- Such a call stores the event that it has built. -/
theorem Wrote.event {w : ArtifactWrite} (h : Wrote db s s' w)
    (hledger : s'.ledger = s.ledger.insert w.2.event) :
    artifactEvent w.2.artifact w.1.context w.1.eventType (w.2.artifact.eventEntries ++ w.1.detail)
      = .ok w.2.event.toLedgerAppend := by
  obtain ⟨event, hevent, happend⟩ := h.appended
  rcases Ledger.append_eq_ok happend with ⟨hsame, -⟩ | ⟨-, -, hnew⟩
  · have hevents := congrArg (fun ledger => ledger.events.length) (hledger.symm.trans hsame)
    simp [Ledger.LedgerState.insert] at hevents
  · rw [hnew]
    exact hevent

/-! ### Runs -/

/-- The writes that lead from one state to another. -/
structure Written (s s' : ReasoningState) (ws : List ArtifactWrite) : Prop where
  bodies : s'.bodies = s.bodies ++ ws.flatMap ArtifactWrite.added
  events : s'.ledger.events = s.ledger.events ++ ws.map (·.2.event)
  body : ∀ w ∈ ws, w.2.artifact.toArtifactBody ∈ s'.bodies
  artifactId : ∀ w ∈ ws, w.2.artifact.id = w.1.artifactId
  event : ∀ w ∈ ws, artifactEvent w.2.artifact w.1.context w.1.eventType
    (w.2.artifact.eventEntries ++ w.1.detail) = .ok w.2.event.toLedgerAppend

theorem Written.nil (s : ReasoningState) : Written s s [] :=
  ⟨by simp, by simp, by simp, by simp, by simp⟩

theorem Written.cons {t : ReasoningState} {w : ArtifactWrite} {ws : List ArtifactWrite}
    (h : Wrote db s s' w) (hledger : s'.ledger = s.ledger.insert w.2.event)
    (hrest : Written s' t ws) : Written s t (w :: ws) where
  bodies := by rw [hrest.bodies, h.bodies, List.flatMap_cons, List.append_assoc]
  events := by
    rw [hrest.events, hledger]
    simp [Ledger.LedgerState.insert]
  body := by
    refine List.forall_mem_cons.mpr ⟨?_, hrest.body⟩
    rw [hrest.bodies]
    exact List.mem_append_left _ h.body
  artifactId := List.forall_mem_cons.mpr ⟨h.artifactId, hrest.artifactId⟩
  event := List.forall_mem_cons.mpr ⟨h.event hledger, hrest.event⟩

/-- A call that returns writes, and another one leaves everything as it was. -/
theorem execCall_cases (db : ReasoningDatabase) (h : Sound s) (call : ArtifactCall) :
    (∃ r s', execCall db call s = (.ok r, s') ∧ Wrote db s s' (call, r)
        ∧ s'.ledger = s.ledger.insert r.event)
      ∨ ∃ e, execCall db call s = (.error e, s) := by
  rcases transaction_cases db (call.statements db) s with ⟨r, s', hx, -, hrun⟩ | ⟨e, hrun⟩
  · exact .inl ⟨r, s', hrun, wrote_statements hx, (h.statements hx).2.1⟩
  · exact .inr ⟨e, hrun⟩

/-- **Runs.**  The rows and the events of a run are those of its writes. -/
theorem written_after (db : ReasoningDatabase) (h : Sound s) (hchained : Ledger.Chained s.ledger)
    (calls : List ArtifactCall) : Written s (after (execCall db) s calls) (writes db s calls)
      ∧ Ledger.Chained (after (execCall db) s calls).ledger := by
  induction calls generalizing s with
  | nil => exact ⟨Written.nil s, hchained⟩
  | cons call calls ih =>
    have hsound : Sound (call.run db s).2 := (h.run call).1
    rcases execCall_cases db h call with ⟨r, s', hrun, hwrote, hledger⟩ | ⟨e, hrun⟩
    · obtain ⟨event, -, happend⟩ := hwrote.appended
      have hchained' : Ledger.Chained s'.ledger := by
        have hstep := hchained.append db.ledger event
        rwa [happend] at hstep
      have hsound' : Sound s' := by
        have hrun' : call.run db s = (.ok r, s') := hrun
        rwa [hrun'] at hsound
      obtain ⟨hwritten, hlast⟩ := ih hsound' hchained'
      have hwrites : writes db s (call :: calls) = (call, r) :: writes db s' calls := by
        simp [writes, answers, hrun, Except.toOption]
      rw [hwrites, after_cons_of (congrArg Prod.snd hrun)]
      exact ⟨hwritten.cons hwrote hledger, hlast⟩
    · have hwrites : writes db s (call :: calls) = writes db s calls := by
        simp [writes, answers, hrun, Except.toOption]
      rw [hwrites, after_cons_of (congrArg Prod.snd hrun)]
      exact ih h hchained

/-! ### Versions -/

/-- The writes to what an artifact is a version of. -/
def writesTo (ws : List ArtifactWrite) (a : ReasoningArtifact) : List ArtifactWrite :=
  ws.filter fun w => w.2.artifact.workspaceId = a.workspaceId
    ∧ w.2.artifact.sessionId = a.sessionId ∧ w.2.artifact.logicalId = a.logicalId

/-- From nothing, the versions are what has been written to them. -/
theorem Written.chain {ws : List ArtifactWrite} (h : Written s s' ws) (hempty : s.artifacts = [])
    (a : ReasoningArtifact) :
    (s'.chain a.workspaceId a.sessionId a.logicalId).map (·.toArtifactBody)
      = (writesTo ws a).flatMap ArtifactWrite.added := by
  have hbodies : s'.bodies = ws.flatMap ArtifactWrite.added := by
    rw [h.bodies, ReasoningState.bodies, hempty]
    rfl
  have hchain : (s'.chain a.workspaceId a.sessionId a.logicalId).map (·.toArtifactBody)
      = s'.bodies.filter fun b => b.workspaceId = a.workspaceId ∧ b.sessionId = a.sessionId
        ∧ b.logicalId = a.logicalId := by
    unfold ReasoningState.bodies
    rw [List.filter_map]
    rfl
  rw [hchain, hbodies, List.filter_flatMap]
  clear hchain hbodies h
  induction ws with
  | nil => rfl
  | cons w ws ih =>
    obtain ⟨call, r⟩ := w
    rw [List.flatMap_cons, ih]
    unfold writesTo
    rw [List.filter_cons (x := (call, r))]
    by_cases hkey : r.artifact.workspaceId = a.workspaceId ∧ r.artifact.sessionId = a.sessionId
        ∧ r.artifact.logicalId = a.logicalId
    · rw [if_pos (by simpa using hkey), List.flatMap_cons]
      cases call <;> simp [ArtifactWrite.added, hkey]
    · rw [if_neg (by simpa using hkey)]
      cases call <;> simp [ArtifactWrite.added, hkey]

end Agora.Artifacts
