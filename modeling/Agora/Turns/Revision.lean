import Agora.Turns.Binding

namespace Agora.Turns

open Artifacts (ReasoningArtifact ReasoningDatabase ReasoningState ArtifactCall)
open Ledger (NonBlank)

/-!
# Revised objectives and constraints

The binding of a session names versions of artifacts, and the assembler takes a bound artifact only while
it is active.  So a session has contexts exactly as long as nothing that it is bound to has been revised
or withdrawn (`assemble_iff_not_retired`), and what they show is current.
-/

/-- The request asks for no artifacts and no retrieval, and its agent is a member of the round that can be
    run and pinned. -/
structure Runnable (ports : ContextPorts) (request : ReasoningContextRequest)
    (definition : RegisteredDefinition) : Prop where
  member : ∃ members effective,
    ports.membership request.workspaceId request.sessionId request.round = .ok members
      ∧ members.find? (·.id = request.agentDefinitionId) = some effective
      ∧ definition.same effective = true
  resolved : ports.definition request.agentDefinitionId = .ok (some definition)
  workspace : definition.workspaceId = request.workspaceId
  runnable : definition.status ≠ .draft ∧ definition.status ≠ .withdrawn
  pinned : ∃ pinned, pinnedDefinition definition = .ok pinned
  canonicalizer : isBlank request.canonicalizerVersion = false
  noKnowledge : definition.knowledgeNs = []
  noRetrieval : request.retrievalRequest = none
  noArtifacts : request.visibleArtifactIds = []

section Summaries

variable (floatText : ℤ → ℤ → List Char) (s : ReasoningState) (request : ReasoningContextRequest)

/-- The payload of an artifact, as a context shows it. -/
def payloadSummary (a : ReasoningArtifact) : String := String.ofList (asciiText floatText a.payload.modelDump)

/-- The text shows the artifact with this id: it is the newest version, and active. -/
def ShowsCurrent (kind : Impact.ArtifactKind) (id : UUID) (text : String) : Prop :=
  ∃ a, s.artifact? request.workspaceId request.sessionId id = some a ∧ a.kind = kind ∧ a.status = .active
    ∧ (s.chain a.workspaceId a.sessionId a.logicalId).getLast? = some a ∧ text = payloadSummary floatText a

variable {floatText s request}

mutual
theorem printable_of_encodable : (j : Json) → j.encodable = true → printable j = true
  | .null, _ | .bool _, _ | .float _ _, _ | .str _, _ => rfl
  | .int _, h => h
  | .arr items, h => printableItems_of_encodable items h
  | .obj entries, h => printableEntries_of_encodable entries h
theorem printableItems_of_encodable : (items : List Json) → Json.encodableItems items = true →
    printableItems items = true
  | [], _ => rfl
  | j :: items, h => by
    rw [Json.encodableItems, Bool.and_eq_true] at h
    rw [printableItems, printable_of_encodable j h.1, printableItems_of_encodable items h.2]
    rfl
theorem printableEntries_of_encodable : (entries : List (PyStr × Json)) →
    Json.encodableEntries entries = true → printableEntries entries = true
  | [], _ => rfl
  | (_, v) :: entries, h => by
    rw [Json.encodableEntries, Bool.and_eq_true, Bool.and_eq_true] at h
    rw [printableEntries, printable_of_encodable v h.1.2, printableEntries_of_encodable entries h.2]
    rfl
end

/-- The payload of an artifact has been hashed, so it can be written. -/
theorem jsonDumps_payload (a : ReasoningArtifact) :
    jsonDumps floatText a.payload.modelDump = .ok (payloadSummary floatText a) := by
  have hencodable := (Marl.canonicalHash_eq_ok.mp a.hashed).1
  rw [Artifacts.ArtifactFields.hashPreimage, Json.encodable] at hencodable
  have hpayload : a.payload.modelDump.encodable = true :=
    (Json.encodableEntries_iff.mp hencodable (.ofString "payload", a.payload.modelDump) (by simp)).2
  exact if_pos (printable_of_encodable _ hpayload)

theorem isBlank_payloadSummary (a : ReasoningArtifact) : isBlank (payloadSummary floatText a) = false := by
  unfold payloadSummary isBlank Artifacts.ArtifactPayload.modelDump
  rw [asciiText, String.toList_ofList, List.all_cons]
  rfl

/-- A bound artifact that is there is shown or refused. -/
theorem loadBound_of_some {kind : Impact.ArtifactKind} {message : String} {id : UUID} {a : ReasoningArtifact}
    (ha : s.artifact? request.workspaceId request.sessionId id = some a) (hkind : a.kind = kind) :
    loadBound floatText s request kind message id = if a.status = .active then
      .ok (payloadSummary floatText a) else .error (permanentPortError message) := by
  obtain ⟨-, hworkspace, hsession, -⟩ := Artifacts.artifact?_some ha
  unfold loadBound
  rw [ha]
  simp only [jsonDumps_payload]
  unfold require InSession
  simp only [hkind, hworkspace, hsession, true_and]
  split_ifs
  · rfl
  · rfl

/-- **Loads.**  Where all that is bound is there, it is shown if all of it is active, and refused
    otherwise. -/
theorem loadAll_cases {kind : Impact.ArtifactKind} {message : String} {ids : List UUID}
    (hs : Artifacts.Sound s)
    (hbound : ∀ id ∈ ids, ∃ a, s.artifact? request.workspaceId request.sessionId id = some a ∧ a.kind = kind) :
    (∃ texts, ids.mapM (loadBound floatText s request kind message) = .ok texts
        ∧ List.Forall₂ (ShowsCurrent floatText s request kind) ids texts
        ∧ (∀ text ∈ texts, isBlank text = false)
        ∧ ∀ id ∈ ids, ∀ a, s.artifact? request.workspaceId request.sessionId id = some a → a.status = .active)
      ∨ ids.mapM (loadBound floatText s request kind message) = .error (permanentPortError message)
        ∧ ∃ id ∈ ids, ∃ a, s.artifact? request.workspaceId request.sessionId id = some a
          ∧ a.status ≠ .active := by
  by_cases hall : ∀ id ∈ ids, ∀ a, s.artifact? request.workspaceId request.sessionId id = some a →
      a.status = .active
  · left
    have hshown : ∀ id ∈ ids, ∃ text, loadBound floatText s request kind message id = .ok text := by
      intro id hid
      obtain ⟨a, ha, hkind⟩ := hbound id hid
      exact ⟨_, (loadBound_of_some ha hkind).trans (if_pos (hall id hid a ha))⟩
    obtain ⟨texts, htexts⟩ := Except.exists_mapM_ok hshown
    have hcurrent {id : UUID} {text : String} (hid : id ∈ ids)
        (htext : loadBound floatText s request kind message id = .ok text) :
        ShowsCurrent floatText s request kind id text := by
      obtain ⟨a, ha, hkind⟩ := hbound id hid
      have hactive := hall id hid a ha
      rw [loadBound_of_some ha hkind, if_pos hactive] at htext
      obtain ⟨hmem, -⟩ := Artifacts.artifact?_some ha
      exact ⟨a, ha, hkind, hactive, hs.versions.active _ _ _ a (Artifacts.mem_chain_self hmem) hactive,
        (Except.ok.inj htext).symm⟩
    refine ⟨texts, htexts, ?_, fun text htext => ?_, hall⟩
    · have hloaded := (List.forall₂_and_left _ _).mpr ⟨fun _ hid => hid, Except.mapM_eq_ok_iff.mp htexts⟩
      exact hloaded.imp fun id text h => hcurrent h.1 h.2
    · obtain ⟨id, hid, hload⟩ := Except.exists_of_mem_mapM htexts htext
      obtain ⟨a, -, -, -, -, rfl⟩ := hcurrent hid hload
      exact isBlank_payloadSummary a
  · right
    simp only [not_forall] at hall
    obtain ⟨id, hid, a, ha, hinactive⟩ := hall
    refine ⟨Except.mapM_eq_error (fun x hx => ?_) ⟨id, hid, ?_⟩, id, hid, a, ha, hinactive⟩
    · obtain ⟨b, hb, hkind⟩ := hbound x hx
      rw [loadBound_of_some hb hkind]
      split_ifs
      · exact .inl ⟨_, rfl⟩
      · exact .inr rfl
    · obtain ⟨b, hb, hkind⟩ := hbound id hid
      obtain rfl : b = a := Option.some.inj (hb.symm.trans ha)
      exact (loadBound_of_some hb hkind).trans (if_neg hinactive)

end Summaries

/-! ### Assembling -/

section Assembling

variable {floatText : ℤ → ℤ → List Char} {ports : ContextPorts} {s : ReasoningState}
  {request : ReasoningContextRequest} {definition : RegisteredDefinition} {session : SessionBinding}

theorem pinnedAgent_of_runnable (h : Runnable ports request definition)
    (hsession : ports.session request.workspaceId request.sessionId = .ok (some session))
    (hids : session.workspaceId = request.workspaceId ∧ session.id = request.sessionId) :
    pinnedAgent ports request = .ok (session, definition) := by
  obtain ⟨members, effective, hmembers, heffective, hsame⟩ := h.member
  have hfilter : (some session).filter (fun b => b.workspaceId = request.workspaceId ∧ b.id = request.sessionId)
      = some session := by simp [hids]
  have hresolved : (some definition).filter
      (fun d => d.same effective ∧ d.workspaceId = request.workspaceId) = some definition := by
    simp [hsame, h.workspace]
  unfold pinnedAgent
  simp only [hsession, Except.ok_bind, hfilter, hmembers, heffective, h.resolved, hresolved]
  rw [require, if_pos h.runnable]
  rfl

/-- A request for a runnable agent depends on the artifacts that the session is bound to. -/
theorem assemble_of_runnable (h : Runnable ports request definition)
    (hsession : ports.session request.workspaceId request.sessionId = .ok (some session))
    (hids : session.workspaceId = request.workspaceId ∧ session.id = request.sessionId) :
    ∃ pinned, assemble floatText ports s request
      = loadObjectives floatText s request session.objectives >>= fun objectives =>
        loadConstraints floatText s request session.constraints >>= fun constraints =>
        reasoningContext request session pinned objectives constraints [] none := by
  obtain ⟨pinned, hpinned⟩ := h.pinned
  have hvisible : loadVisibleArtifacts floatText s request = .ok [] := by
    rw [loadVisibleArtifacts, h.noArtifacts]
    rfl
  have hretrieve : retrieve floatText ports request definition = .ok none := by
    rw [retrieve, h.noRetrieval]
    simp only [require, h.noKnowledge, if_true]
    rfl
  refine ⟨pinned, ?_⟩
  unfold assemble
  rw [pinnedAgent_of_runnable h hsession hids]
  simp only [Except.ok_bind, require, h.noArtifacts, implies_true, if_true, List.nodup_nil, hvisible, hretrieve,
    hpinned]

theorem contextText_of_not_blank {text : String} (h : isBlank text = false) :
    ∃ t, contextText text = .ok t ∧ t.text = text := by
  have hvalid : (!isBlank text) = true := by rw [h]; rfl
  exact ⟨⟨text, hvalid⟩, dif_pos hvalid, rfl⟩

theorem mapM_contextText {texts : List String} (h : ∀ text ∈ texts, isBlank text = false) :
    ∃ ts, texts.mapM contextText = .ok ts ∧ ts.map (·.text) = texts := by
  obtain ⟨ts, hts⟩ := Except.exists_mapM_ok fun text htext =>
    (contextText_of_not_blank (h text htext)).imp fun _ ht => ht.1
  refine ⟨ts, hts, ?_⟩
  rw [Except.map_eq_of_mapM (k := id) (fun x y hxy => ?_) hts, List.map_id]
  exact @validText_ok (fun s => !isBlank s) "reasoning context text must not be blank" x y hxy

/-- Texts that are not blank make a context. -/
theorem exists_reasoningContext (h : Runnable ports request definition) (pinned : PinnedAgentDefinition)
    {objectives constraints : List String} (hobjectives : ∀ text ∈ objectives, isBlank text = false)
    (hconstraints : ∀ text ∈ constraints, isBlank text = false) :
    ∃ context, reasoningContext request session pinned objectives constraints [] none = .ok context
      ∧ context.objectiveSummaries.map (·.text) = objectives
      ∧ context.constraintSummaries.map (·.text) = constraints := by
  obtain ⟨canonicalizer, hcanonicalizer, -⟩ := contextText_of_not_blank h.canonicalizer
  obtain ⟨objectiveTexts, hobjectiveTexts, hsame⟩ := mapM_contextText hobjectives
  obtain ⟨constraintTexts, hconstraintTexts, hsame'⟩ := mapM_contextText hconstraints
  have hnodup : (([] : List ContextArtifact).map (·.id)).Nodup := List.nodup_nil
  have hsealed : request.round = 1 ∧ request.phase = .assess →
      request.sealedAssessment = true ∧ ([] : List ContextArtifact).isEmpty = true := by
    rintro ⟨hround, hphase⟩
    simp [ReasoningContextRequest.sealedAssessment, hround, hphase]
  unfold reasoningContext
  simp only [hcanonicalizer, hobjectiveTexts, hconstraintTexts, Except.ok_bind, dif_pos hnodup, dif_pos hsealed]
  exact ⟨_, rfl, hsame, hsame'⟩

theorem assemble_cases (h : Runnable ports request definition)
    (hsession : ports.session request.workspaceId request.sessionId = .ok (some session))
    (hids : session.workspaceId = request.workspaceId ∧ session.id = request.sessionId)
    (hs : Artifacts.Sound s)
    (hobjectives : ∀ id ∈ session.objectives, ∃ a,
      s.artifact? request.workspaceId request.sessionId id = some a ∧ a.kind = .objective)
    (hconstraints : ∀ id ∈ session.constraints, ∃ a,
      s.artifact? request.workspaceId request.sessionId id = some a ∧ a.kind = .constraint) :
    (∃ context, assemble floatText ports s request = .ok context
        ∧ List.Forall₂ (ShowsCurrent floatText s request .objective) session.objectives
          (context.objectiveSummaries.map (·.text))
        ∧ List.Forall₂ (ShowsCurrent floatText s request .constraint) session.constraints
          (context.constraintSummaries.map (·.text))
        ∧ ∀ id ∈ session.objectives ++ session.constraints, ∀ a,
          s.artifact? request.workspaceId request.sessionId id = some a → a.status = .active)
      ∨ (assemble floatText ports s request
            = .error (permanentPortError "bound objective is unavailable or ineligible")
          ∨ assemble floatText ports s request
            = .error (permanentPortError "bound constraint is unavailable or ineligible"))
        ∧ ∃ id ∈ session.objectives ++ session.constraints, ∃ a,
          s.artifact? request.workspaceId request.sessionId id = some a ∧ a.status ≠ .active := by
  obtain ⟨pinned, heq⟩ := @assemble_of_runnable floatText ports s request definition session h hsession hids
  rw [heq]
  unfold loadObjectives loadConstraints
  rcases loadAll_cases hs hobjectives with
      ⟨objectives, hload, hshown, hblank, hactive⟩ | ⟨hload, id, hid, hinactive⟩
  · rcases loadAll_cases hs hconstraints with
      ⟨constraints, hload', hshown', hblank', hactive'⟩ | ⟨hload', id, hid, hinactive⟩
    · left
      obtain ⟨context, hcontext, hsame, hsame'⟩ := exists_reasoningContext h pinned hblank hblank'
      refine ⟨context, ?_, hsame ▸ hshown, hsame' ▸ hshown', fun id hid => ?_⟩
      · rw [hload, Except.ok_bind, hload', Except.ok_bind]
        exact hcontext
      · exact (List.mem_append.mp hid).elim (hactive id) (hactive' id)
    · right
      refine ⟨.inr ?_, id, List.mem_append_right _ hid, hinactive⟩
      rw [hload, Except.ok_bind, hload']
      rfl
  · right
    refine ⟨.inl ?_, id, List.mem_append_left _ hid, hinactive⟩
    rw [hload]
    rfl

end Assembling

/-! ### Sessions over time -/

section Sessions

variable {db : ReasoningDatabase} {t : SessionTables}

/-- The binding is read as it was written, with its ids in order. -/
theorem get_of_session? {w n : UUID} {b : SessionBinding} (h : t.session? w n = some b)
    (hvalid : bindingViolation b.objectives b.constraints = none) :
    t.get w n = .ok (some { b with
      objectives := b.objectives.insertionSort (· ≤ ·)
      constraints := b.constraints.insertionSort (· ≤ ·) }) := by
  unfold SessionTables.get draftSessionBinding
  rw [h]
  simp only [nonBlank_text, Except.ok_bind, bindingViolation_sorted hvalid]
  rfl

/-- An artifact that a session was created with is there in every later state. -/
theorem exists_bound {q : SessionRequest} {b : SessionBinding} {t' : SessionTables}
    (hs : Artifacts.Sound t.reasoning) (hcreate : q.run db t = (.ok b, t')) (later : List SessionStep)
    {c : SessionArtifactCommit} (hc : c ∈ q.objectiveCommits ++ q.constraintCommits) :
    ∃ a, (after (perform db) t' later).reasoning.artifact? b.workspaceId b.id c.artifact.id = some a
      ∧ a.kind = c.artifact.kind
      ∧ (a.status = .active ↔ Along (perform db) (fun t step => ¬ Retires db c.artifact.id t step) t' later) := by
  obtain ⟨event, e, s, s', hcreates, rfl⟩ := run_ok.mp hcreate
  obtain ⟨hfound, hactive⟩ := hcreates.artifact? hs hc
  obtain ⟨a, ha, hbody, hiff⟩ := @artifact?_after db ⟨_, s'⟩ _ _ _ _ (hcreates.reasoning hs).1 hfound later
  refine ⟨a, ha, ?_, hiff.trans (and_iff_right hactive)⟩
  unfold Artifacts.ArtifactFields.kind
  rw [hbody]

/-- **Revised objectives.**  At any time after a session was created, an agent that can be run gets a
    context exactly when nothing that the session is bound to has been revised or withdrawn.  The context
    then shows the active versions, and otherwise the request is refused. -/
theorem assemble_iff_not_retired (floatText : ℤ → ℤ → List Char) {start : SessionTables}
    (hstart : Artifacts.Blank start.reasoning) {earlier : List SessionStep} {q : SessionRequest}
    {b : SessionBinding} {t : SessionTables}
    (hcreate : q.run db (after (perform db) start earlier) = (.ok b, t)) (later : List SessionStep)
    {others : ContextPorts} {request : ReasoningContextRequest} {definition : RegisteredDefinition}
    (hworkspace : request.workspaceId = b.workspaceId) (hsession : request.sessionId = b.id)
    (hagent : Runnable others request definition) :
    let now := after (perform db) t later
    ((∃ context, assemble floatText (now.ports others) now.reasoning request = .ok context)
        ↔ Along (perform db) (fun t step => ∀ id, id ∈ b.objectives ++ b.constraints → ¬ Retires db id t step)
          t later)
      ∧ (∀ context, assemble floatText (now.ports others) now.reasoning request = .ok context →
        List.Forall₂ (ShowsCurrent floatText now.reasoning request .objective)
            (b.objectives.insertionSort (· ≤ ·)) (context.objectiveSummaries.map (·.text))
          ∧ List.Forall₂ (ShowsCurrent floatText now.reasoning request .constraint)
            (b.constraints.insertionSort (· ≤ ·)) (context.constraintSummaries.map (·.text)))
      ∧ ∀ e, assemble floatText (now.ports others) now.reasoning request = .error e →
        e = permanentPortError "bound objective is unavailable or ineligible"
          ∨ e = permanentPortError "bound constraint is unavailable or ineligible" := by
  intro now
  have hs := @sound_after db start hstart.sound earlier
  obtain ⟨event, e, s, s', hcreates, heq⟩ := run_ok.mp hcreate
  obtain ⟨-, -, -, hobjectives, hconstraints, hvalid⟩ := draftSessionBinding_ok hcreates.drafted
  rw [← hobjectives, ← hconstraints] at hvalid
  have hnow : Artifacts.Sound now.reasoning := by
    have hcreated : Artifacts.Sound t.reasoning := by
      rw [heq]
      exact (hcreates.reasoning hs).1
    exact sound_after hcreated later
  have hrow : now.session? b.workspaceId b.id = some b := by
    apply session?_after
    rw [heq]
    exact hcreates.session?
  have hports : (now.ports others).session request.workspaceId request.sessionId = .ok (some { b with
      objectives := b.objectives.insertionSort (· ≤ ·)
      constraints := b.constraints.insertionSort (· ≤ ·) }) := by
    rw [hworkspace, hsession]
    exact get_of_session? hrow hvalid
  -- What is bound is there, with its kind, and active as long as no step has retired it.
  have hbound {c : SessionArtifactCommit} (hc : c ∈ q.objectiveCommits ++ q.constraintCommits) :
      ∃ a, now.reasoning.artifact? request.workspaceId request.sessionId c.artifact.id = some a
        ∧ a.kind = c.artifact.kind
        ∧ (a.status = .active
          ↔ Along (perform db) (fun t step => ¬ Retires db c.artifact.id t step) t later) := by
    rw [hworkspace, hsession]
    exact exists_bound hs hcreate later hc
  have hactive {id : UUID} (hid : id ∈ b.objectives ++ b.constraints) :
      ∃ a, now.reasoning.artifact? request.workspaceId request.sessionId id = some a
        ∧ (a.status = .active ↔ Along (perform db) (fun t step => ¬ Retires db id t step) t later) := by
    rw [hobjectives, hconstraints, SessionRequest.objectiveIds, SessionRequest.constraintIds,
      ← List.map_append] at hid
    obtain ⟨c, hc, rfl⟩ := List.mem_map.mp hid
    obtain ⟨a, ha, -, hiff⟩ := hbound hc
    exact ⟨a, ha, hiff⟩
  have hkind : ∀ id ∈ b.objectives.insertionSort (· ≤ ·), ∃ a,
      now.reasoning.artifact? request.workspaceId request.sessionId id = some a ∧ a.kind = .objective := by
    intro id hid
    rw [List.mem_insertionSort, hobjectives] at hid
    obtain ⟨c, hc, rfl⟩ := List.mem_map.mp hid
    obtain ⟨a, ha, hkind, -⟩ := hbound (List.mem_append_left _ hc)
    exact ⟨a, ha, hkind.trans (q.objectives_kind c hc)⟩
  have hkind' : ∀ id ∈ b.constraints.insertionSort (· ≤ ·), ∃ a,
      now.reasoning.artifact? request.workspaceId request.sessionId id = some a ∧ a.kind = .constraint := by
    intro id hid
    rw [List.mem_insertionSort, hconstraints] at hid
    obtain ⟨c, hc, rfl⟩ := List.mem_map.mp hid
    obtain ⟨a, ha, hkind, -⟩ := hbound (List.mem_append_right _ hc)
    exact ⟨a, ha, hkind.trans (q.constraints_kind c hc)⟩
  have hagent' : Runnable (now.ports others) request definition :=
    ⟨hagent.member, hagent.resolved, hagent.workspace, hagent.runnable, hagent.pinned, hagent.canonicalizer,
      hagent.noKnowledge, hagent.noRetrieval, hagent.noArtifacts⟩
  rcases @assemble_cases floatText _ _ _ _ _ hagent' hports ⟨hworkspace.symm, hsession.symm⟩ hnow hkind hkind' with
    ⟨context, hok, hshown, hshown', hall⟩ | ⟨herror, id, hid, a, ha, hinactive⟩
  · refine ⟨iff_of_true ⟨context, hok⟩ (along_forall.mpr fun id hid => ?_), fun context' h => ?_, fun e h => ?_⟩
    · obtain ⟨a, ha, hiff⟩ := hactive hid
      apply hiff.mp
      apply hall id _ a ha
      simpa using hid
    · obtain rfl := Except.ok.inj (hok.symm.trans h)
      exact ⟨hshown, hshown'⟩
    · rw [hok] at h
      cases h
  · refine ⟨iff_of_false ?_ fun h => ?_, fun context h => ?_, fun e h => ?_⟩
    · rintro ⟨context, h⟩
      rcases herror with herror | herror
      · rw [herror] at h
        cases h
      · rw [herror] at h
        cases h
    · have hid' : id ∈ b.objectives ++ b.constraints := by simpa using hid
      obtain ⟨a', ha', hiff⟩ := hactive hid'
      obtain rfl : a' = a := Option.some.inj (ha'.symm.trans ha)
      exact hinactive (hiff.mpr (along_forall.mp h id hid'))
    · rcases herror with herror | herror
      · rw [herror] at h
        cases h
      · rw [herror] at h
        cases h
    · rcases herror with herror | herror
      · exact .inl (Except.error.inj (h.symm.trans herror))
      · exact .inr (Except.error.inj (h.symm.trans herror))

end Sessions

/-! ### An objective that is revised -/

section Sample

open Artifacts (ArtifactFields sampleContext unlimitedTables exists_artifactEvent exists_graphNode)
open Ledger (LedgerAppend LedgerEvent LedgerState)
open Session (sampleId noon)
open Stateful

def sampleTables : SessionTables := ⟨[], Artifacts.sampleStart⟩

def sampleCommit : SessionArtifactCommit := ⟨sampleObjective, sampleId 2, [], "Objective", sampleContext 6⟩

theorem kind_sampleCommit : sampleCommit.artifact.kind = .objective := by
  show objectiveFields.kind = .objective
  rfl

def sampleSession : SessionRequest where
  sessionId := sampleId 1
  workspaceId := sampleId 0
  problemStatement := "Which grid?"
  objectiveCommits := [sampleCommit]
  constraintCommits := []
  context := sampleContext 5
  objectives_kind := List.forall_mem_singleton.mpr kind_sampleCommit
  constraints_kind := List.forall_mem_nil _

def sampleBinding : SessionBinding :=
  ⟨sampleId 1, sampleId 0, ⟨"Which grid?", .refl true⟩, [sampleId 2], []⟩

/-- The second version of the objective. -/
def revisedFields : ArtifactFields :=
  { objectiveFields with id := sampleId 7, version := 2, supersedesId := some (sampleId 2) }

theorem writable_revisedFields : revisedFields.Writable := by
  obtain ⟨hpayload, hmetadata, hsources, hschema, -, hround⟩ := writable_objectiveFields
  exact ⟨hpayload, hmetadata, hsources, hschema, by decide, hround⟩

def revisedObjective : ReasoningArtifact where
  toArtifactFields := revisedFields
  contentHash := Marl.sha256Hash (utf8 revisedFields.hashPreimage.canonical)
  valid := rfl
  hashed := Marl.canonicalHash_eq_ok.mpr
    ⟨Artifacts.encodable_hashPreimage writable_revisedFields, rfl⟩
  status := .active
  updatedAt := noon 0

def sampleRevision : ArtifactCall :=
  .revise revisedObjective (sampleId 7) (sampleId 8) [] "Objective" "a better weight" (sampleContext 7)

theorem runnable_sample : Runnable samplePorts sampleRequest sampleDefinition where
  member := ⟨[sampleDefinition], sampleDefinition, rfl, by simp [sampleDefinition, sampleRequest], by decide +kernel⟩
  resolved := rfl
  workspace := rfl
  runnable := by decide
  pinned := Except.exists_ok_of_isOk (by decide +kernel)
  canonicalizer := by decide
  noKnowledge := rfl
  noRetrieval := rfl
  noArtifacts := rfl

/-- The ledger of the session has `n` events, none with this id. -/
structure HasEvents (ledger : LedgerState) (n : ℕ) (digits : List (Fin 10)) : Prop where
  ids : ∀ e ∈ ledger.events, ∃ digit ∈ digits, e.id = sampleId digit
  head : ∃ hash, ledger.head? (sampleId 0) (sampleId 1) = some ⟨sampleId 0, n + 1, hash, n.succ_pos⟩

/-- An event of the session with a new id is stored. -/
theorem HasEvents.exists_append {ledger : LedgerState} {n : ℕ} {digits : List (Fin 10)}
    (h : HasEvents ledger n digits) {event : LedgerAppend} {digit : Fin 10} (hid : event.id = sampleId digit)
    (hfresh : ∀ d ∈ digits, sampleId d ≠ sampleId digit) (hworkspace : event.workspaceId = sampleId 0)
    (hsession : event.sessionId = sampleId 1) (hprint : Json.isPrintable (n + 1 : ℕ) = true)
    (hversion : Json.isPrintable event.payloadSchemaVersion = true)
    (hround : Json.isPrintable event.round = true) :
    ∃ e, Ledger.append unlimitedTables.ledger event ledger = (.ok e, ledger.insert e)
      ∧ HasEvents (ledger.insert e) (n + 1) (digits ++ [digit]) := by
  obtain ⟨hash, hhead⟩ := h.head
  have hnew : ledger.eventById event.id = none := by
    rw [Ledger.eventById_eq_none]
    intro hmem
    obtain ⟨e, he, hsame⟩ := List.mem_map.mp hmem
    obtain ⟨d, hd, hdigit⟩ := h.ids e he
    exact hfresh d hd (hdigit.symm.trans (hsame.trans hid))
  rw [← hworkspace, ← hsession] at hhead
  obtain ⟨e, happend, heq⟩ := @Ledger.exists_append unlimitedTables.ledger event ledger _ hnew hhead hprint hversion
    hround fun _ => rfl
  have hseq : e.ledgerSeq = n + 1 := by
    rcases Ledger.append_cases unlimitedTables.ledger event ledger with
      ⟨-, hstored⟩ | ⟨p, head, -, hhead', happend', -, hseq, -⟩
    · rw [hstored e (congrArg Prod.fst happend)] at hnew
      cases hnew
    · obtain rfl := Except.ok.inj (congrArg Prod.fst (happend.symm.trans happend'))
      obtain rfl := Option.some.inj (hhead.symm.trans hhead')
      exact hseq
  refine ⟨e, happend, fun f hf => ?_, e.eventHash, ?_⟩
  · rcases List.mem_append.mp hf with hf | hf
    · obtain ⟨d, hd, hdigit⟩ := h.ids f hf
      exact ⟨d, List.mem_append_left _ hd, hdigit⟩
    · obtain rfl := List.mem_singleton.mp hf
      exact ⟨digit, List.mem_append_right _ (List.mem_singleton_self digit), by rw [heq, hid]⟩
  · rw [Ledger.head?_insert, heq, hsession, hworkspace, if_pos rfl, if_pos rfl, hseq]

theorem draft_sampleSession : sampleSession.draft = .ok sampleBinding := by
  have hvalid : bindingViolation [sampleId 2] [] = none :=
    bindingViolation_eq_none.mpr ⟨List.cons_ne_nil _ _, List.nodup_singleton _, List.nodup_nil,
      fun _ _ => List.not_mem_nil⟩
  show draftSessionBinding (sampleId 1) (sampleId 0) sampleBinding.problemStatement.text [sampleId 2] []
    = .ok sampleBinding
  unfold draftSessionBinding
  simp only [nonBlank_text, Except.ok_bind, hvalid]
  rfl

theorem exists_createdEvent : ∃ event, sampleSession.createdEvent = .ok event := by
  have hencodable : Json.encodableEntries [(.ofString "session_id", .text (sampleId 1).text),
      (.ofString "objective_ids", Artifacts.uuids sampleSession.objectiveIds),
      (.ofString "constraint_ids", Artifacts.uuids sampleSession.constraintIds)] = true := by
    simp [Json.encodableEntries, Json.isScalar_ofString]
  have hkeys : (["session_id", "objective_ids", "constraint_ids"].map PyStr.ofString).Nodup := by decide
  obtain ⟨payload, hpayload⟩ := Artifacts.exists_jsonPayload hencodable hkeys
    (by simp [Artifacts.normal_uuids])
  exact ⟨_, Except.bind_eq_ok.mpr ⟨payload, hpayload, rfl⟩⟩

/-- The objective is committed as the first artifact. -/
theorem exists_commit_sampleObjective {ledger : LedgerState} {n : ℕ} {digits : List (Fin 10)}
    (hledger : HasEvents ledger n digits) (hfresh : ∀ d ∈ digits, sampleId d ≠ sampleId 6)
    (hprint : Json.isPrintable (n + 1 : ℕ) = true) : ∃ node e,
    Artifacts.commit unlimitedTables sampleObjective (sampleId 2) [] "Objective" (sampleContext 6)
        ⟨[], [], [], ledger⟩
      = (.ok ⟨sampleObjective, e⟩, ⟨[sampleObjective], [node], [], ledger.insert e⟩)
      ∧ Artifacts.graphNode sampleObjective (sampleId 2) "Objective" = .ok node
      ∧ HasEvents (ledger.insert e) (n + 1) (digits ++ [6]) := by
  have hone : Json.isPrintable 1 = true ∧ Json.isPrintable 0 = true := by decide
  have hkeys : (["artifact_id", "kind", "logical_id", "version"].map PyStr.ofString).Nodup := by decide
  obtain ⟨node, hnode⟩ := @exists_graphNode sampleObjective (sampleId 2) "Objective" hone.1 (by decide)
  obtain ⟨event, hevent⟩ := @exists_artifactEvent sampleObjective sampleObjective (sampleContext 6)
    Artifacts.committedType [] hone.1 rfl hkeys (List.forall_mem_nil _)
  have hvalues := (Artifacts.artifactEvent_ok hevent).1
  obtain ⟨e, happend, hcommitted⟩ := hledger.exists_append hvalues.id hfresh hvalues.workspaceId
    hvalues.sessionId hprint (hvalues.payloadSchemaVersion ▸ hone.1) (hvalues.round ▸ hone.2)
  have hprojects : Artifacts.Projects unlimitedTables ⟨[], [], [], ledger⟩ sampleObjective (sampleId 2) []
      "Objective" (sampleContext 6) node [] :=
    ⟨rfl, rfl, hnode, rfl, rfl, rfl, List.Forall₂.nil, Artifacts.EdgesFit.nil _⟩
  exact ⟨node, e, Artifacts.commit_ok.mpr ⟨⟨rfl, rfl, rfl⟩, node, [], event, e, _, hprojects, hevent, happend,
    rfl, rfl⟩, hnode, hcommitted⟩

theorem hasEvents_sampleStart : HasEvents Artifacts.sampleStart.ledger 0 [] :=
  ⟨fun _ he => absurd he List.not_mem_nil, Ledger.genesisHash, rfl⟩

/-- The session is created with its objective. -/
theorem exists_run_sampleSession : ∃ node ledger,
    sampleSession.run unlimitedTables sampleTables
        = (.ok sampleBinding, ⟨[sampleBinding], ⟨[sampleObjective], [node], [], ledger⟩⟩)
      ∧ Artifacts.graphNode sampleObjective (sampleId 2) "Objective" = .ok node
      ∧ HasEvents ledger 2 [5, 6] := by
  have hprint : Json.isPrintable 1 = true ∧ Json.isPrintable 0 = true ∧ Json.isPrintable 2 = true := by decide
  obtain ⟨event, hbuilt⟩ := exists_createdEvent
  obtain ⟨-, hid, hworkspace, hsession, hversion, hround⟩ := createdEvent_ok hbuilt
  obtain ⟨e, happend, hcreated⟩ := hasEvents_sampleStart.exists_append hid
    (fun _ h => absurd h List.not_mem_nil) hworkspace hsession hprint.1 (hversion ▸ hprint.1)
    (hround ▸ hprint.2.1)
  obtain ⟨node, e', hcommit, hnode, hcommitted⟩ := exists_commit_sampleObjective hcreated
    (by decide +kernel) hprint.2.2
  refine ⟨node, _, run_ok.mpr ⟨event, e, _, _, ⟨draft_sampleSession, ?_, hbuilt,
    Artifacts.appendEvent_ok.mpr ⟨_, happend, rfl⟩, bind_eq_ok.mpr ⟨_, _, hcommit, rfl⟩, ?_, rfl⟩, ?_⟩, hnode,
    hcommitted⟩
  · exact fun row hrow => absurd hrow List.not_mem_nil
  · intro id hid
    obtain rfl := List.mem_singleton.mp hid
    have hfound : (sampleObjective.workspaceId = sampleId 0 ∧ sampleObjective.sessionId = sampleId 1
        ∧ sampleObjective.id = sampleId 2) := ⟨rfl, rfl, rfl⟩
    show (List.find? _ [sampleObjective]).isSome = true
    rw [List.find?_cons_of_pos (by exact decide_eq_true hfound)]
    rfl
  · have hbind : sampleBinding.bind { sampleBinding with objectives := [], constraints := [] } = sampleBinding :=
      if_pos rfl
    show _ = SessionTables.mk [sampleBinding.bind { sampleBinding with objectives := [], constraints := [] }] _
    rw [hbind]

/-- Before anything is revised there are contexts. -/
theorem assemble_iff_not_retired_sample : ∃ b t,
    sampleSession.run unlimitedTables sampleTables = (.ok b, t)
      ∧ ∃ context, assemble (fun _ _ => []) (t.ports samplePorts) t.reasoning sampleRequest = .ok context := by
  obtain ⟨node, ledger, hrun, -⟩ := exists_run_sampleSession
  refine ⟨_, _, hrun, ?_⟩
  exact (@assemble_iff_not_retired unlimitedTables (fun _ _ => []) sampleTables Artifacts.blank_sampleStart []
    sampleSession sampleBinding _ hrun [] samplePorts sampleRequest sampleDefinition rfl rfl
    runnable_sample).1.mpr trivial

/-- The values of a node of the session. -/
theorem node_values {a : ReasoningArtifact} {node : Artifacts.GraphNode} {nodeId : UUID} {label : String}
    (h : Artifacts.graphNode a nodeId label = .ok node) :
    node.id = nodeId ∧ node.workspaceId = a.workspaceId ∧ node.sessionId = a.sessionId ∧ node.refId = a.id := by
  obtain ⟨hid, hprojection⟩ := Artifacts.graphNode_ok h
  simp only [Artifacts.GraphNode.projection, ReasoningArtifact.projection, Prod.mk.injEq] at hprojection
  exact ⟨hid, hprojection.1, hprojection.2.1, hprojection.2.2.1⟩

theorem exists_sampleEdge {fromNode toNode : UUID} (h : fromNode ≠ toNode) :
    ∃ edge, Artifacts.graphEdge revisedObjective (sampleId 8) fromNode toNode .supersedes
      (.obj [(.ofString "reason", .text "a better weight")]) (sampleContext 7) = .ok edge := by
  have hqualifier : (Json.obj [(.ofString "reason", .text "a better weight")]).encodable = true := by
    simp [Json.encodable, Json.encodableEntries, Json.isScalar_ofString]
  unfold Artifacts.graphEdge
  simp only [Json.canonicalJson_of_encodable hqualifier, Except.ok_bind, dif_pos h]
  exact ⟨_, rfl⟩

theorem exists_revisionEvent : ∃ event, Artifacts.artifactEvent revisedObjective (sampleContext 7)
    Artifacts.revisedType (Artifacts.revisionEntries revisedObjective sampleObjective "a better weight")
      = .ok event := by
  have hversion : Json.isPrintable revisedObjective.version = true := by
    show Json.isPrintable 2 = true
    decide
  have hkeys : (["artifact_id", "kind", "logical_id", "version", "supersedes_id", "reason"].map
      PyStr.ofString).Nodup := by decide
  apply exists_artifactEvent (sampleContext 7) Artifacts.revisedType hversion
  · show Json.encodableEntries [(.ofString "supersedes_id", .text (sampleId 2).text),
      (.ofString "reason", .text "a better weight")] = true
    simp [Json.encodableEntries, Json.isScalar_ofString]
  · exact hkeys
  · intro e he
    rcases List.mem_cons.mp he with rfl | he
    · rfl
    · rw [List.mem_singleton.mp he]
      rfl


theorem artifact?_sample {node : Artifacts.GraphNode} {ledger : LedgerState} :
    ReasoningState.artifact? ⟨[sampleObjective], [node], [], ledger⟩ (sampleId 0) (sampleId 1) (sampleId 2)
      = some sampleObjective := by
  have hmatch : sampleObjective.workspaceId = sampleId 0 ∧ sampleObjective.sessionId = sampleId 1
      ∧ sampleObjective.id = sampleId 2 := ⟨rfl, rfl, rfl⟩
  exact List.find?_cons_of_pos (decide_eq_true hmatch)

theorem projects_revisedObjective {node node' : Artifacts.GraphNode} {ledger : LedgerState}
    (hnode : Artifacts.graphNode sampleObjective (sampleId 2) "Objective" = .ok node)
    (hnode' : Artifacts.graphNode revisedObjective (sampleId 7) "Objective" = .ok node') :
    Artifacts.Projects unlimitedTables ⟨[sampleObjective], [node], [], ledger⟩ revisedObjective
      (sampleId 7) [] "Objective" (sampleContext 7) node' [] := by
  have hdiffers : sampleId 2 ≠ sampleId 7 := by decide +kernel
  obtain ⟨hid, -, -, href⟩ := node_values hnode
  obtain ⟨hid', -, -, href'⟩ := node_values hnode'
  refine ⟨?_, rfl, hnode', ?_, rfl, rfl, List.Forall₂.nil, Artifacts.EdgesFit.nil _⟩
  · refine Artifacts.freshArtifact_iff.mpr fun b hb => ?_
    rw [List.mem_singleton.mp hb]
    refine ⟨hdiffers, fun hkey => ?_⟩
    have hversion : (1 : ℕ) = 2 := congrArg (fun k => k.2.2.2) hkey
    exact absurd hversion (by decide)
  · have hids : node.id ≠ node'.id := by
      rw [hid, hid']
      exact hdiffers
    have hrefs : node.refId ≠ node'.refId := by
      rw [href, href']
      exact hdiffers
    simp only [ReasoningState.freshNode, List.all_cons, List.all_nil, Bool.and_true, Bool.and_eq_true,
      decide_eq_true_eq]
    exact ⟨hids, fun hkey => hrefs (congrArg Prod.snd hkey)⟩

theorem isPredecessor_sampleObjective {node : Artifacts.GraphNode} {ledger : LedgerState}
    (hnode : Artifacts.graphNode sampleObjective (sampleId 2) "Objective" = .ok node) :
    Artifacts.IsPredecessor ⟨[sampleObjective], [node], [], ledger⟩ revisedObjective (sampleId 2)
      sampleObjective node := by
  have hmatch : node.workspaceId = sampleId 0 ∧ node.sessionId = sampleId 1 ∧ node.refId = sampleId 2 :=
    (node_values hnode).2
  exact ⟨artifact?_sample, rfl, rfl, rfl, rfl, List.find?_cons_of_pos (decide_eq_true hmatch)⟩

/-- The revision of the objective is accepted. -/
theorem exists_run_sampleRevision {node : Artifacts.GraphNode} {ledger : LedgerState}
    (hnode : Artifacts.graphNode sampleObjective (sampleId 2) "Objective" = .ok node)
    {n : ℕ} {digits : List (Fin 10)} (hledger : HasEvents ledger n digits)
    (hfresh : ∀ d ∈ digits, sampleId d ≠ sampleId 7) (hprintable : Json.isPrintable (n + 1 : ℕ) = true) :
    ∃ r s', sampleRevision.statements unlimitedTables ⟨[sampleObjective], [node], [], ledger⟩ = (.ok r, s') := by
  have hprint : Json.isPrintable 1 = true ∧ Json.isPrintable 0 = true := by decide
  have hversion : Json.isPrintable revisedObjective.version = true := by
    show Json.isPrintable 2 = true
    decide
  obtain ⟨node', hnode'⟩ := exists_graphNode (sampleId 7) hversion (show isBlank "Objective" = false by decide)
  have hloop : node'.id ≠ node.id := by
    rw [(node_values hnode).1, (node_values hnode').1]
    decide +kernel
  obtain ⟨edge, hedge⟩ := exists_sampleEdge hloop
  obtain ⟨event, hevent⟩ := exists_revisionEvent
  have hvalues := (Artifacts.artifactEvent_ok hevent).1
  obtain ⟨e, happend, -⟩ := hledger.exists_append hvalues.id hfresh hvalues.workspaceId
    hvalues.sessionId hprintable (hvalues.payloadSchemaVersion ▸ hprint.1) (hvalues.round ▸ hprint.2)
  have hrevises : Artifacts.Revises unlimitedTables ⟨[sampleObjective], [node], [], ledger⟩ revisedObjective
      (sampleId 7) (sampleId 8) [] "Objective" "a better weight" (sampleContext 7) sampleObjective node node' []
      edge := by
    refine ⟨rfl, ?_, rfl, by decide, isPredecessor_sampleObjective hnode,
      projects_revisedObjective hnode hnode', ?_, hedge, fun f hf => absurd hf List.not_mem_nil, rfl⟩
    · show 1 < 2
      decide
    · exact Bool.and_eq_true _ _ ▸ ⟨rfl, decide_eq_true (le_refl (noon 0))⟩
  exact ⟨_, _, Artifacts.revise_ok.mpr ⟨sampleObjective, node, node', [], edge, event, e, _, hrevises, hevent,
    happend, rfl, rfl⟩⟩

/-- The objective of a new session is revised, and then its agent gets no context. -/
theorem revision_disables_session : ∃ b t r t',
    sampleSession.run unlimitedTables sampleTables = (.ok b, t) ∧ sampleId 2 ∈ b.objectives
      ∧ sampleRevision.run unlimitedTables t.reasoning = (.ok r, t')
      ∧ retired sampleRevision = some (sampleId 2)
      ∧ Runnable samplePorts sampleRequest sampleDefinition
      ∧ assemble (fun _ _ => []) (SessionTables.ports ⟨t.sessions, t'⟩ samplePorts) t' sampleRequest
        = .error (permanentPortError "bound objective is unavailable or ineligible") := by
  obtain ⟨node, ledger, hrun, hnode, hledger⟩ := exists_run_sampleSession
  obtain ⟨r, s', hrevision⟩ := exists_run_sampleRevision hnode hledger (by decide +kernel) (by decide)
  refine ⟨_, _, r, s', hrun, List.mem_singleton_self _, Artifacts.transaction_ok.mpr ⟨hrevision, rfl⟩, rfl,
    runnable_sample, ?_⟩
  have hget : SessionTables.get ⟨[sampleBinding], s'⟩ (sampleId 0) (sampleId 1) = .ok (some sampleBinding) := by
    have hmatch : sampleBinding.workspaceId = sampleId 0 ∧ sampleBinding.id = sampleId 1 := ⟨rfl, rfl⟩
    have hrow : SessionTables.session? ⟨[sampleBinding], s'⟩ (sampleId 0) (sampleId 1) = some sampleBinding :=
      List.find?_cons_of_pos (decide_eq_true hmatch)
    exact get_of_session? hrow (bindingViolation_eq_none.mpr ⟨List.cons_ne_nil _ _, List.nodup_singleton _,
      List.nodup_nil, fun _ _ => List.not_mem_nil⟩)
  obtain ⟨a, ha, hbody, hiff⟩ := artifact?_statements hrevision artifact?_sample
  have hkind : a.kind = .objective := by
    unfold Artifacts.ArtifactFields.kind
    rw [hbody]
    rfl
  have hinactive : a.status ≠ .active := fun h => (hiff.mp h).2 rfl
  obtain ⟨pinned, heq⟩ := @assemble_of_runnable (fun _ _ => [])
    (SessionTables.ports ⟨[sampleBinding], s'⟩ samplePorts) s' sampleRequest sampleDefinition sampleBinding
    ⟨runnable_sample.member, rfl, rfl, runnable_sample.runnable, runnable_sample.pinned,
      runnable_sample.canonicalizer, rfl, rfl, rfl⟩ hget ⟨rfl, rfl⟩
  have hload : loadObjectives (fun _ _ => []) s' sampleRequest sampleBinding.objectives
      = .error (permanentPortError "bound objective is unavailable or ineligible") := by
    have hrefused := (@loadBound_of_some (fun _ _ => []) s' sampleRequest .objective
      "bound objective is unavailable or ineligible" (sampleId 2) a ha hkind).trans (if_neg hinactive)
    apply Except.mapM_eq_error
    · intro id hid
      rw [List.mem_singleton.mp hid]
      exact .inr hrefused
    · exact ⟨sampleId 2, List.mem_singleton_self _, hrefused⟩
  exact heq.trans (by rw [hload]; rfl)

end Sample

end Agora.Turns
