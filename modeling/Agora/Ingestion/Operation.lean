import Agora.Ingestion.Store

namespace Agora.Ingestion

open Stateful

/-!
# One operation

What every call of one operation keeps (`Sound`), and what it may do (`Effect`): later results are
about these, and not about the calls.
-/

/-! ### Rows that are written -/

namespace IngestionOperationRow

variable {row : IngestionOperationRow} {now : Datetime}

/-- The states of the stages after parsing, as long as parsing has not succeeded. -/
def Waiting (row : IngestionOperationRow) : Prop := row.embedState = .pending ∧ row.indexState = .pending

theorem consistent_of_none (hstage : row.failureStage = none) (hcode : row.failureCode = none)
    (hkind : row.failureKind = none) (hdetail : row.failureDetail = none)
    (hacquire : row.acquireState ≠ .failed) (hparse : row.parseState ≠ .failed)
    (hembed : row.embedState ≠ .failed) (hindex : row.indexState ≠ .failed) : row.Consistent := by
  refine ⟨by simp [hcode, hstage], by simp [hkind, hstage], by simp [hdetail, hstage], ?_⟩
  rw [failedStages_eq, hstage]
  simp [hacquire, hparse, hembed, hindex]

theorem consistent_newOperation (c : IngestSourceInput) : (c.newOperation now).Consistent := by
  apply consistent_of_none <;> simp [IngestSourceInput.newOperation]

theorem consistent_restarted (h : row.Waiting) : (row.restarted now).Consistent := by
  unfold restarted
  split_ifs with hacquire
  · apply consistent_of_none <;> simp [withoutFailure, h.1, h.2]
  · rw [not_not] at hacquire
    apply consistent_of_none <;> simp [withoutFailure, h.1, h.2, hacquire]

theorem consistent_acquired (h : row.Waiting) (objectRef : String) :
    (row.acquired objectRef now).Consistent := by
  apply consistent_of_none <;> simp [acquired, withoutFailure, h.1, h.2]

theorem consistent_completed (h : row.Waiting) (warnings : List String) :
    (row.completed warnings now).Consistent := by
  apply consistent_of_none <;> simp [completed, withoutFailure, h.1, h.2]

/-- A failure of acquiring can always be recorded, and one of parsing unless acquiring has failed. -/
theorem consistent_failedIn (h : row.Waiting) (stage : AttemptStage) (failure : Failure)
    (objectRef : Option String) : (row.failedIn stage failure objectRef now).Consistent
      ↔ (stage = .parse → row.acquireState ≠ .failed) := by
  cases stage with
  | acquire =>
    simp only [reduceCtorEq, false_implies, iff_true]
    refine ⟨rfl, rfl, rfl, ?_⟩
    rw [failedStages_eq]
    simp [failedIn, withFailure, AttemptStage.stage, h.1, h.2]
  | parse =>
    simp only [true_implies]
    constructor
    · rintro ⟨-, -, -, hstages⟩ hacquire
      rw [failedStages_eq] at hstages
      simp [failedIn, withFailure, AttemptStage.stage, h.1, h.2, hacquire] at hstages
    · intro hacquire
      refine ⟨rfl, rfl, rfl, ?_⟩
      rw [failedStages_eq]
      simp [failedIn, withFailure, AttemptStage.stage, h.1, h.2, hacquire]

theorem mayAdvance_eq_ok {stage : DownstreamStage} {state : IngestionStageState} :
    mayAdvance row stage state = .ok () ↔ row.parseState = .succeeded
      ∧ (stage = .index → row.embedState = .succeeded)
      ∧ (row.stateOf stage.stage = .succeeded → state = .succeeded)
      ∧ (row.stateOf stage.stage = .failed → row.failureKind ≠ some .permanent ∧ state = .running)
      ∧ (row.failureStage = none ∨ row.failureStage = some stage.stage) := by
  unfold mayAdvance
  split_ifs <;> simp_all
  all_goals tauto

theorem validDetails_eq_ok {state : IngestionStageState} {code : Option IngestionFailureCode}
    {kind : Option IngestionFailureKind} {detail : Option String} :
    validDetails state code kind detail = .ok () ↔ code.isSome = decide (state = .failed)
      ∧ kind.isSome = decide (state = .failed) ∧ detail.isSome = decide (state = .failed) := by
  unfold validDetails
  by_cases hstate : state = .failed
  · rw [if_pos hstate]
    cases code <;> cases kind <;> cases detail <;> simp [hstate]
  · rw [if_neg hstate]
    cases code <;> cases kind <;> cases detail <;> simp [hstate]

/-- The failure that is recorded is that of the stage that has failed. -/
theorem Consistent.failureStage (h : row.Consistent) {stage : IngestionStage}
    (hfailed : row.stateOf stage = .failed) : row.failureStage = some stage := by
  have hmem : stage ∈ row.failedStages := by
    apply List.mem_filter.mpr
    refine ⟨?_, decide_eq_true hfailed⟩
    cases stage <;> decide
  rw [h.stages, Option.mem_toList] at hmem
  exact hmem

/-- A stage that may advance leaves a consistent row. -/
theorem consistent_advanced {stage : DownstreamStage} {state : IngestionStageState}
    {code : Option IngestionFailureCode} {kind : Option IngestionFailureKind} {detail : Option String}
    (h : row.Consistent) (hacquire : row.acquireState = .succeeded)
    (hmay : mayAdvance row stage state = .ok ())
    (hdetails : validDetails state code kind detail = .ok ()) :
    (row.advanced stage state code kind detail now).Consistent := by
  obtain ⟨hparse, -, -, -, hstage⟩ := mayAdvance_eq_ok.mp hmay
  obtain ⟨hcode, hkind, hdetail⟩ := validDetails_eq_ok.mp hdetails
  -- The other stage has not failed: its failure would be the one that is recorded.
  have hother (other : IngestionStage) (hne : other ≠ stage.stage) : row.stateOf other ≠ .failed := by
    intro hfailed
    have hrecorded := h.failureStage hfailed
    rcases hstage with hnone | hsame
    · rw [hnone] at hrecorded
      cases hrecorded
    · rw [hsame] at hrecorded
      exact hne (Option.some.inj hrecorded).symm
  have hsome : (if state = .failed then some stage.stage else none).isSome = decide (state = .failed) := by
    split_ifs with hstate <;> simp [hstate]
  refine ⟨hcode.trans hsome.symm, hkind.trans hsome.symm, ?_, ?_⟩
  · rw [← hsome] at hdetail
    simpa [advanced] using hdetail
  · cases stage with
    | embed =>
      have hindex : row.indexState ≠ .failed := hother .index (by decide)
      rw [failedStages_eq]
      by_cases hstate : state = .failed
      · simp [advanced, withDownstream, DownstreamStage.stage, hacquire, hparse, hindex, hstate]
      · simp [advanced, withDownstream, hacquire, hparse, hindex, hstate]
    | index =>
      have hembed : row.embedState ≠ .failed := hother .embed (by decide)
      rw [failedStages_eq]
      by_cases hstate : state = .failed
      · simp [advanced, withDownstream, DownstreamStage.stage, hacquire, hparse, hembed, hstate]
      · simp [advanced, withDownstream, hacquire, hparse, hembed, hstate]

@[simp] theorem restarted_facts : (row.restarted now).id = row.id
    ∧ (row.restarted now).identity = row.identity := by
  unfold restarted
  split_ifs <;> exact ⟨rfl, rfl⟩

@[simp] theorem failedIn_facts {stage : AttemptStage} {failure : Failure} {objectRef : Option String} :
    (row.failedIn stage failure objectRef now).id = row.id
      ∧ (row.failedIn stage failure objectRef now).identity = row.identity := by
  cases stage <;> exact ⟨rfl, rfl⟩

@[simp] theorem advanced_facts {stage : DownstreamStage} {state : IngestionStageState}
    {code : Option IngestionFailureCode} {kind : Option IngestionFailureKind} {detail : Option String} :
    (row.advanced stage state code kind detail now).id = row.id
      ∧ (row.advanced stage state code kind detail now).identity = row.identity := by
  cases stage <;> exact ⟨rfl, rfl⟩

end IngestionOperationRow

/-! ### Tables that are written -/

namespace KnowledgeTables

variable {s : KnowledgeTables} {id : UUID}

theorem operation?_id {row : IngestionOperationRow} (h : s.operation? id = some row) : row.id = id := by
  simpa using List.find?_some h

theorem source?_id {row : SourceRow} (h : s.source? id = some row) : row.id = id := by
  simpa using List.find?_some h

theorem document?_id {row : DocumentRow} (h : s.document? id = some row) : row.id = id := by
  simpa using List.find?_some h

@[simp] theorem operation?_withOperation (row : IngestionOperationRow) :
    (s.withOperation row).operation? id = if row.id = id then some row else s.operation? id :=
  find?_keyedSet

@[simp] theorem source?_withSource (row : SourceRow) :
    (s.withSource row).source? id = if row.id = id then some row else s.source? id :=
  find?_keyedSet

@[simp] theorem document?_withDocument (row : DocumentRow) :
    (s.withDocument row).document? id = if row.id = id then some row else s.document? id :=
  find?_keyedSet

@[simp] theorem source?_withOperation (row : IngestionOperationRow) :
    (s.withOperation row).source? id = s.source? id := rfl

@[simp] theorem document?_withOperation (row : IngestionOperationRow) :
    (s.withOperation row).document? id = s.document? id := rfl

@[simp] theorem chunksOf_withOperation (row : IngestionOperationRow) :
    (s.withOperation row).chunksOf = s.chunksOf := rfl

@[simp] theorem operation?_withSource (row : SourceRow) :
    (s.withSource row).operation? id = s.operation? id := rfl

@[simp] theorem document?_withSource (row : SourceRow) :
    (s.withSource row).document? id = s.document? id := rfl

@[simp] theorem chunksOf_withSource (row : SourceRow) : (s.withSource row).chunksOf = s.chunksOf := rfl

@[simp] theorem operation?_withDocument (row : DocumentRow) :
    (s.withDocument row).operation? id = s.operation? id := rfl

@[simp] theorem source?_withDocument (row : DocumentRow) :
    (s.withDocument row).source? id = s.source? id := rfl

@[simp] theorem chunksOf_withDocument (row : DocumentRow) :
    (s.withDocument row).chunksOf = s.chunksOf := rfl

@[simp] theorem operation?_withChunks (rows : List KnowledgeChunkRow) :
    (s.withChunks rows).operation? id = s.operation? id := rfl

@[simp] theorem source?_withChunks (rows : List KnowledgeChunkRow) :
    (s.withChunks rows).source? id = s.source? id := rfl

@[simp] theorem document?_withChunks (rows : List KnowledgeChunkRow) :
    (s.withChunks rows).document? id = s.document? id := rfl

end KnowledgeTables

/-- The tables after an operation has been completed. -/
def KnowledgeTables.completedWith (s : KnowledgeTables) (document : DocumentRow)
    (chunks : List KnowledgeChunkRow) (source : SourceRow) (row : IngestionOperationRow) :
    KnowledgeTables :=
  (((s.withDocument document).withChunks chunks).withSource (source.withStatus .ready)).withOperation row

/-! ### Soundness -/

variable {c : IngestSourceInput} {s s' : KnowledgeTables}

/-- What holds between any two calls of one operation. -/
structure Sound (c : IngestSourceInput) (s : KnowledgeTables) : Prop where
  missing : s.operation? c.operationId = none → s.source? c.sourceId = none
  identity : ∀ row ∈ s.operation? c.operationId, row.identity = c.identity
  consistent : ∀ row ∈ s.operation? c.operationId, row.Consistent
  waiting : ∀ row ∈ s.operation? c.operationId, row.parseState ≠ .succeeded → row.Waiting
  acquired : ∀ row ∈ s.operation? c.operationId, row.parseState = .succeeded →
    row.acquireState = .succeeded
  source : ∀ source ∈ s.source? c.sourceId, source.accepted = true

/-- The call is one of the operation. -/
def StoreCall.IsFor (c : IngestSourceInput) : StoreCall → Prop
  | .start c' | .acquired c' _ | .complete c' _ _ _ _ | .fail c' _ _ _ => c' = c
  | .result workspaceId operationId | .recordDownstreamStage workspaceId operationId _ _ _ _ _ =>
    workspaceId = c.workspaceId ∧ operationId = c.operationId

/-- What a call of the operation may do. -/
inductive Effect (c : IngestSourceInput) (s : KnowledgeTables) : StoreCall → KnowledgeTables → Prop where
  | unchanged (call : StoreCall) : Effect c s call s
  | started (now : Datetime) (hnone : s.operation? c.operationId = none) :
      Effect c s (.start c) (s.withOperation (c.newOperation now))
  | restarted {row : IngestionOperationRow} (now : Datetime)
      (hrow : s.operation? c.operationId = some row) (hterminal : row.terminal = false) :
      Effect c s (.start c) (s.withOperation (row.restarted now))
  | acquired {row : IngestionOperationRow} {objectRef : String} {t : KnowledgeTables} (now : Datetime)
      (hrow : s.operation? c.operationId = some row) (hparse : row.parseState ≠ .succeeded)
      (hkind : row.failureKind ≠ some .permanent)
      (hsource : acquiredSource c objectRef s = (.ok (), t)) :
      Effect c s (.acquired c objectRef) (t.withOperation (row.acquired objectRef now))
  | completed {row : IngestionOperationRow} {source : SourceRow} {objectRef : String}
      {document : DocumentRow} {chunks : List KnowledgeChunkRow} {warnings : List String}
      (now : Datetime) (hrow : s.operation? c.operationId = some row)
      (hparse : row.parseState ≠ .succeeded) (hobject : row.objectRef = some objectRef)
      (hdocument : s.document? c.documentId = none) (hsource : s.source? c.sourceId = some source)
      (htakes : s.takesDocument document chunks = true) (hstatus : source.status ≠ .retracted) :
      Effect c s (.complete c objectRef document chunks warnings)
        (s.completedWith document chunks source (row.completed warnings now))
  | failed {row : IngestionOperationRow} {stage : AttemptStage} {failure : Failure}
      {objectRef : Option String} {t : KnowledgeTables} (now : Datetime)
      (hrow : s.operation? c.operationId = some row) (hparse : row.parseState ≠ .succeeded)
      (hstage : stage = .parse → row.acquireState ≠ .failed)
      (hsource : failedSource c stage failure.kind s = (.ok (), t)) :
      Effect c s (.fail c stage failure objectRef)
        (t.withOperation (row.failedIn stage failure objectRef now))
  | advanced {row : IngestionOperationRow} {stage : DownstreamStage} {state : IngestionStageState}
      {code : Option IngestionFailureCode} {kind : Option IngestionFailureKind} {detail : Option String}
      {t : KnowledgeTables} (now : Datetime) (hrow : s.operation? c.operationId = some row)
      (hmay : mayAdvance row stage state = .ok ()) (hdetails : validDetails state code kind detail = .ok ())
      (hrows : downstreamRows row stage state s = (.ok (), t)) :
      Effect c s (.recordDownstreamStage c.workspaceId c.operationId stage state code kind detail)
        (t.withOperation (row.advanced stage state code kind detail now))

/-- A source that is not retracted may have another status. -/
theorem mayBecome_withStatus {source : SourceRow} (h : source.accepted = true) {status : SourceStatus}
    (hstatus : status ≠ .retracted) :
    (source.mayBecome (source.withStatus status) && (source.withStatus status).accepted) = true
      ↔ source.status ≠ .retracted := by
  constructor
  · intro hboth hretracted
    simp [SourceRow.mayBecome, hretracted, hstatus] at hboth
  · intro hsource
    have hnone : source.retractedAt = none ∧ source.retractionReason = none := by
      simpa [SourceRow.accepted, hsource] using h
    simp [SourceRow.mayBecome, SourceRow.accepted, hsource, hstatus, hnone.1, hnone.2]

theorem wrapped_eq_ok {α β : Type} {x : Statement α} {f : α → β} {b : β} :
    (x >>= fun a => pure (f a)) s = (.ok b, s') ↔ ∃ a, x s = (.ok a, s') ∧ f a = b := by
  rw [bind_eq_ok]
  constructor
  · rintro ⟨a, t, hx, hpure⟩
    obtain ⟨hb, rfl⟩ := Prod.mk.inj hpure
    exact ⟨a, hx, Except.ok.inj hb⟩
  · rintro ⟨a, hx, rfl⟩
    exact ⟨a, s', hx, rfl⟩

/-- **Effects.**  A call of a sound operation that returns has done one of these. -/
theorem effect_of_ok (h : Sound c s) {call : StoreCall} (hcall : call.IsFor c) {now : Datetime}
    {a : Answer} (hok : perform call now s = (.ok a, s')) : Effect c s call s' := by
  cases call with
  | start c' =>
    obtain rfl : c' = c := hcall
    obtain ⟨k, hstart, -⟩ := wrapped_eq_ok.mp hok
    rcases start_eq_ok.mp hstart with ⟨hnone, -, rfl, -⟩ | ⟨row, hrow, -, -, ⟨-, -, rfl⟩ | ⟨hterminal, -, rfl, -⟩⟩
    · exact .started now hnone
    · exact .unchanged _
    · exact .restarted now hrow hterminal
  | acquired c' objectRef =>
    obtain rfl : c' = c := hcall
    obtain ⟨⟨⟩, hacquired, -⟩ := wrapped_eq_ok.mp hok
    obtain ⟨row, hrow, -, -, ⟨-, rfl⟩ | ⟨hparse, hkind, -, t, hsource, rfl⟩⟩ := acquired_eq_ok.mp hacquired
    · exact .unchanged _
    · exact .acquired now hrow hparse hkind hsource
  | complete c' objectRef document chunks warnings =>
    obtain rfl : c' = c := hcall
    obtain ⟨r, hcomplete, -⟩ := wrapped_eq_ok.mp hok
    obtain ⟨row, hrow, -, ⟨-, hresult⟩ | ⟨hparse, hobject, hdocument, source, hsource, htakes, hbecome, -,
      hresult⟩⟩ := complete_eq_ok.mp hcomplete
    · obtain ⟨-, rfl⟩ := Prod.mk.inj hresult
      exact .unchanged _
    · obtain ⟨-, rfl⟩ := Prod.mk.inj hresult
      have hstatus := (mayBecome_withStatus (h.source source hsource) (by decide)).mp hbecome
      exact .completed now hrow hparse hobject hdocument hsource htakes hstatus
  | fail c' stage failure objectRef =>
    obtain rfl : c' = c := hcall
    obtain ⟨⟨⟩, hfail, -⟩ := wrapped_eq_ok.mp hok
    obtain ⟨row, hrow, -, ⟨-, rfl⟩ | ⟨hparse, haccepted, t, hsource, rfl⟩⟩ := fail_eq_ok.mp hfail
    · exact .unchanged _
    · have hconsistent := (IngestionOperationRow.accepted_iff _).mp haccepted
      rw [IngestionOperationRow.consistent_failedIn (h.waiting row hrow hparse)] at hconsistent
      exact .failed now hrow hparse hconsistent hsource
  | result workspaceId operationId =>
    obtain ⟨r, hresult, -⟩ := wrapped_eq_ok.mp hok
    have hsame := readOnly_result workspaceId operationId s
    rw [hresult] at hsame
    obtain rfl : s' = s := hsame
    exact .unchanged _
  | recordDownstreamStage workspaceId operationId stage state code kind detail =>
    obtain ⟨rfl, rfl⟩ := hcall
    obtain ⟨k, hrecord, -⟩ := wrapped_eq_ok.mp hok
    obtain ⟨hdetails, row, hrow, -, hmay, -, -, t, hrows, rfl⟩ := recordDownstreamStage_eq_ok.mp hrecord
    exact .advanced now hrow hmay hdetails hrows

/-- And one that raises has done nothing. -/
theorem perform_effect (h : Sound c s) {call : StoreCall} (hcall : call.IsFor c) (now : Datetime) :
    Effect c s call (perform call now s).2 := by
  cases hanswer : (perform call now s).1 with
  | ok a => exact effect_of_ok h hcall (Prod.ext hanswer rfl)
  | error e =>
    rw [perform_error hanswer]
    exact .unchanged _

/-! ### What the parts of a call leave -/

theorem source?_acquired {objectRef : String} {t : KnowledgeTables}
    (h : acquiredSource c objectRef s = (.ok (), t)) :
    t.source? c.sourceId = some ((s.source? c.sourceId).getD (c.newSource objectRef))
      ∧ ((s.source? c.sourceId = none → (c.newSource objectRef).accepted = true))
      ∧ t.operations = s.operations ∧ t.documents = s.documents ∧ t.chunks = s.chunks := by
  rcases acquiredSource_eq_ok.mp h with ⟨hnone, htakes, rfl⟩ | ⟨source, hsource, -, -, rfl⟩
  · rw [Bool.and_eq_true] at htakes
    refine ⟨?_, fun _ => htakes.2, rfl, rfl, rfl⟩
    rw [KnowledgeTables.source?_withSource, hnone]
    exact if_pos rfl
  · refine ⟨by rw [hsource]; rfl, ?_, rfl, rfl, rfl⟩
    intro hnone
    rw [hsource] at hnone
    cases hnone

/-- Who may become something else is not retracted. -/
theorem of_mayBecome {source : SourceRow} {status : SourceStatus} (hstatus : status ≠ .retracted)
    (h : (source.mayBecome (source.withStatus status) && (source.withStatus status).accepted) = true) :
    (source.withStatus status).accepted = true ∧ source.status ≠ .retracted := by
  rw [Bool.and_eq_true] at h
  refine ⟨h.2, fun hretracted => ?_⟩
  simp [SourceRow.mayBecome, hretracted, hstatus] at h

theorem source?_withStatus {id : UUID} {source : SourceRow} (h : s.source? id = some source)
    (status : SourceStatus) :
    (s.withSource (source.withStatus status)).source? id = some (source.withStatus status) := by
  rw [KnowledgeTables.source?_withSource, SourceRow.withStatus_id, KnowledgeTables.source?_id h]
  exact if_pos rfl

/-- A failure of parsing that is permanent marks the source, if it is there. -/
theorem source?_failed {stage : AttemptStage} {kind : IngestionFailureKind} {t : KnowledgeTables}
    (h : failedSource c stage kind s = (.ok (), t)) :
    t.source? c.sourceId = (s.source? c.sourceId).map (fun source =>
        if stage = .parse ∧ kind = .permanent then source.withStatus .failed else source)
      ∧ (stage = .parse ∧ kind = .permanent → ∀ source ∈ s.source? c.sourceId,
          (source.withStatus .failed).accepted = true ∧ source.status ≠ .retracted)
      ∧ t.operations = s.operations ∧ t.documents = s.documents ∧ t.chunks = s.chunks := by
  rcases failedSource_eq_ok.mp h with ⟨hstage, hkind, source, hsource, hbecome, rfl⟩ | ⟨hnot, rfl⟩
  · refine ⟨?_, fun _ other hother => ?_, rfl, rfl, rfl⟩
    · rw [source?_withStatus hsource, hsource, Option.map_some, if_pos ⟨hstage, hkind⟩]
    · obtain rfl := Option.some.inj (hsource.symm.trans hother)
      exact of_mayBecome (by decide) hbecome
  · refine ⟨?_, fun hboth source hsource => ?_, rfl, rfl, rfl⟩
    · cases hsource : t.source? c.sourceId with
      | none => rfl
      | some source =>
        rw [Option.map_some, if_neg]
        rintro ⟨hstage, hkind⟩
        exact hnot ⟨hstage, hkind, by simp [hsource]⟩
    · exact absurd ⟨hboth.1, hboth.2, Option.ne_none_iff_exists'.mpr ⟨source, hsource⟩⟩ hnot

/-- A document whatever its status. -/
def DocumentRow.content (d : DocumentRow) : DocumentRow := { d with status := .pending }

theorem rows_advancedDocument {row : IngestionOperationRow} {status : DocumentStatus}
    {t : KnowledgeTables} (h : advancedDocument row status s = (.ok (), t)) :
    (t.document? row.documentId).map DocumentRow.content
        = (s.document? row.documentId).map DocumentRow.content
      ∧ t.operations = s.operations ∧ t.sources = s.sources ∧ t.chunks = s.chunks := by
  unfold advancedDocument at h
  rw [read_bind] at h
  cases hdocument : s.document? row.documentId with
  | none =>
    rw [hdocument] at h
    obtain rfl := pure_eq_ok.mp h
    exact ⟨by rw [hdocument], rfl, rfl, rfl⟩
  | some document =>
    rw [hdocument] at h
    obtain ⟨-, rfl⟩ := flush_eq_ok.mp h
    refine ⟨?_, rfl, rfl, rfl⟩
    rw [KnowledgeTables.document?_withDocument, if_pos (KnowledgeTables.document?_id hdocument)]
    rfl

theorem rows_readySource {row : IngestionOperationRow} {t : KnowledgeTables}
    (h : readySource row s = (.ok (), t)) :
    t.source? row.sourceId = (s.source? row.sourceId).map (·.withStatus .ready)
      ∧ (∀ source ∈ s.source? row.sourceId,
          (source.withStatus .ready).accepted = true ∧ source.status ≠ .retracted)
      ∧ t.operations = s.operations ∧ t.documents = s.documents ∧ t.chunks = s.chunks := by
  unfold readySource at h
  rw [read_bind] at h
  cases hsource : s.source? row.sourceId with
  | none =>
    rw [hsource] at h
    obtain rfl := pure_eq_ok.mp h
    refine ⟨by rw [hsource]; rfl, fun source hnone => ?_, rfl, rfl, rfl⟩
    exact absurd hnone (Option.not_mem_none source)
  | some source =>
    rw [hsource] at h
    obtain ⟨hbecome, rfl⟩ := flush_eq_ok.mp h
    refine ⟨source?_withStatus hsource .ready, fun other hother => ?_, rfl, rfl, rfl⟩
    obtain rfl := Option.some.inj hother
    exact of_mayBecome (by decide) hbecome

/-- A stage after parsing marks the document, and the last one the source. -/
theorem rows_downstream {row : IngestionOperationRow} {stage : DownstreamStage}
    {state : IngestionStageState} {t : KnowledgeTables}
    (h : downstreamRows row stage state s = (.ok (), t)) :
    t.source? row.sourceId = (s.source? row.sourceId).map (fun source =>
        if stage = .index ∧ state = .succeeded then source.withStatus .ready else source)
      ∧ (stage = .index ∧ state = .succeeded → ∀ source ∈ s.source? row.sourceId,
          (source.withStatus .ready).accepted = true ∧ source.status ≠ .retracted)
      ∧ (t.document? row.documentId).map DocumentRow.content
          = (s.document? row.documentId).map DocumentRow.content
      ∧ t.operations = s.operations ∧ t.chunks = s.chunks := by
  by_cases hindex : stage = .index ∧ state = .succeeded
  · obtain ⟨rfl, rfl⟩ := hindex
    obtain ⟨⟨⟩, u, hdocument, hsource⟩ := bind_eq_ok.mp h
    obtain ⟨hcontent, hoperations, hsources, hchunks⟩ := rows_advancedDocument hdocument
    obtain ⟨hready, haccepted, hoperations', hdocuments, hchunks'⟩ := rows_readySource hsource
    have hsame : u.source? row.sourceId = s.source? row.sourceId := by
      rw [KnowledgeTables.source?, hsources]
      rfl
    rw [hsame] at hready haccepted
    refine ⟨by simpa using hready, fun _ => haccepted, ?_, hoperations'.trans hoperations,
      hchunks'.trans hchunks⟩
    rw [KnowledgeTables.document?, hdocuments]
    exact hcontent
  · have hid : (fun source : SourceRow =>
        if stage = .index ∧ state = .succeeded then source.withStatus .ready else source) = id := by
      ext1 source
      exact if_neg hindex
    rw [hid, Option.map_id]
    by_cases hembed : stage = .embed ∧ state = .succeeded
    · obtain ⟨rfl, rfl⟩ := hembed
      obtain ⟨hcontent, hoperations, hsources, hchunks⟩ := rows_advancedDocument h
      refine ⟨?_, fun hboth => absurd hboth hindex, hcontent, hoperations, hchunks⟩
      rw [KnowledgeTables.source?, hsources]
      rfl
    · have hpure : downstreamRows row stage state = pure () := by
        cases stage <;> cases state
        case embed.succeeded => exact absurd ⟨rfl, rfl⟩ hembed
        case index.succeeded => exact absurd ⟨rfl, rfl⟩ hindex
        all_goals rfl
      rw [hpure] at h
      obtain rfl := pure_eq_ok.mp h
      exact ⟨rfl, fun hboth => absurd hboth hindex, rfl, rfl, rfl⟩

/-- A sound operation whose row is another one. -/
theorem sound_withOperation {row : IngestionOperationRow} (hid : row.id = c.operationId)
    (hidentity : row.identity = c.identity) (hconsistent : row.Consistent)
    (hwaiting : row.parseState ≠ .succeeded → row.Waiting)
    (hacquired : row.parseState = .succeeded → row.acquireState = .succeeded)
    (hsource : ∀ source ∈ s.source? c.sourceId, source.accepted = true) :
    Sound c (s.withOperation row) := by
  have hrow : (s.withOperation row).operation? c.operationId = some row := by
    rw [KnowledgeTables.operation?_withOperation, if_pos hid]
  have hall {p : IngestionOperationRow → Prop} (hp : p row) :
      ∀ stored ∈ (s.withOperation row).operation? c.operationId, p stored := by
    intro stored hstored
    rw [hrow] at hstored
    exact Option.some.inj hstored ▸ hp
  refine ⟨?_, hall hidentity, hall hconsistent, hall hwaiting, hall hacquired, hsource⟩
  intro hnone
  rw [hrow] at hnone
  cases hnone

/-- The ids of a row that belongs to the operation. -/
theorem ids_of_identity {row : IngestionOperationRow} (h : row.identity = c.identity) :
    row.workspaceId = c.workspaceId ∧ row.sourceId = c.sourceId ∧ row.documentId = c.documentId := by
  simp only [IngestionOperationRow.identity, IngestSourceInput.identity, Prod.mk.injEq] at h
  exact ⟨h.1, h.2.2.1, h.2.2.2.1⟩

/-- **Soundness.**  Every call of the operation keeps it. -/
theorem Sound.effect (h : Sound c s) {call : StoreCall} (heffect : Effect c s call s') : Sound c s' := by
  cases heffect with
  | unchanged => exact h
  | started now hnone =>
    apply sound_withOperation rfl rfl (IngestionOperationRow.consistent_newOperation c)
    · exact fun _ => ⟨rfl, rfl⟩
    · exact nofun
    · exact h.source
  | restarted now hrow hterminal =>
    rename_i row
    have hparse : row.parseState ≠ .succeeded := by
      intro hparse
      simp [IngestionOperationRow.terminal, hparse] at hterminal
    have hwaiting := h.waiting row hrow hparse
    apply sound_withOperation
    · exact IngestionOperationRow.restarted_facts.1.trans (KnowledgeTables.operation?_id hrow)
    · exact IngestionOperationRow.restarted_facts.2.trans (h.identity row hrow)
    · exact IngestionOperationRow.consistent_restarted hwaiting
    · intro _
      unfold IngestionOperationRow.restarted
      split_ifs <;> exact hwaiting
    · unfold IngestionOperationRow.restarted
      split_ifs <;> exact nofun
    · exact h.source
  | acquired now hrow hparse hkind hsource =>
    rename_i row objectRef t
    obtain ⟨hnew, haccepted, -, -, -⟩ := source?_acquired hsource
    have hwaiting := h.waiting row hrow hparse
    have hid : row.id = c.operationId := KnowledgeTables.operation?_id hrow
    apply sound_withOperation
    · exact hid
    · exact h.identity row hrow
    · exact IngestionOperationRow.consistent_acquired hwaiting objectRef
    · exact fun _ => hwaiting
    · exact nofun
    · intro source hmem
      rw [hnew] at hmem
      obtain rfl := Option.some.inj hmem
      cases hstored : s.source? c.sourceId with
      | none => exact haccepted hstored
      | some stored => exact h.source stored hstored
  | completed now hrow hparse hobject hdocument hsource htakes hstatus =>
    rename_i row source objectRef document chunks warnings
    have hwaiting := h.waiting row hrow hparse
    have hid : row.id = c.operationId := KnowledgeTables.operation?_id hrow
    have hready : (source.mayBecome (source.withStatus .ready) && (source.withStatus .ready).accepted) = true :=
      (mayBecome_withStatus (h.source source hsource) (by decide)).mpr hstatus
    apply sound_withOperation
    · exact hid
    · exact h.identity row hrow
    · exact IngestionOperationRow.consistent_completed hwaiting warnings
    · exact fun hne => absurd rfl hne
    · exact fun _ => rfl
    · intro other hmem
      have hkept : ((s.withDocument document).withChunks chunks).source? c.sourceId = some source := hsource
      rw [source?_withStatus hkept .ready] at hmem
      obtain rfl := Option.some.inj hmem
      exact (of_mayBecome (by decide) hready).1
  | failed now hrow hparse hstage hsource =>
    rename_i row stage failure objectRef t
    obtain ⟨hnew, haccepted, -, -, -⟩ := source?_failed hsource
    have hwaiting := h.waiting row hrow hparse
    apply sound_withOperation
    · exact IngestionOperationRow.failedIn_facts.1.trans (KnowledgeTables.operation?_id hrow)
    · exact IngestionOperationRow.failedIn_facts.2.trans (h.identity row hrow)
    · exact (IngestionOperationRow.consistent_failedIn hwaiting _ _ _).mpr hstage
    · intro _
      cases stage <;> exact hwaiting
    · cases stage <;> exact nofun
    · intro source hmem
      rw [hnew] at hmem
      obtain ⟨stored, hstored, rfl⟩ := Option.map_eq_some_iff.mp hmem
      split_ifs with hboth
      · exact (haccepted hboth stored hstored).1
      · exact h.source stored hstored
  | advanced now hrow hmay hdetails hrows =>
    rename_i row stage state code kind detail t
    obtain ⟨hnew, haccepted, -, -, -⟩ := rows_downstream hrows
    obtain ⟨-, hsourceId, -⟩ := ids_of_identity (h.identity row hrow)
    have hparse := (IngestionOperationRow.mayAdvance_eq_ok.mp hmay).1
    have hacquire := h.acquired row hrow hparse
    have hstates : (row.advanced stage state code kind detail now).parseState = row.parseState
        ∧ (row.advanced stage state code kind detail now).acquireState = row.acquireState := by
      cases stage <;> exact ⟨rfl, rfl⟩
    apply sound_withOperation
    · exact IngestionOperationRow.advanced_facts.1.trans (KnowledgeTables.operation?_id hrow)
    · exact IngestionOperationRow.advanced_facts.2.trans (h.identity row hrow)
    · exact IngestionOperationRow.consistent_advanced (h.consistent row hrow) hacquire hmay hdetails
    · intro hne
      rw [hstates.1] at hne
      exact absurd hparse hne
    · exact fun _ => hstates.2.trans hacquire
    · intro source hmem
      rw [← hsourceId, hnew] at hmem
      obtain ⟨stored, hstored, rfl⟩ := Option.map_eq_some_iff.mp hmem
      split_ifs with hboth
      · exact (haccepted hboth stored hstored).1
      · rw [hsourceId] at hstored
        exact h.source stored hstored

/-- Nothing of the operation is there yet. -/
structure Fresh (c : IngestSourceInput) (s : KnowledgeTables) : Prop where
  operation : s.operation? c.operationId = none
  source : s.source? c.sourceId = none
  document : s.document? c.documentId = none

theorem Fresh.sound (h : Fresh c s) : Sound c s where
  missing _ := h.source
  identity row hrow := by rw [h.operation] at hrow; cases hrow
  consistent row hrow := by rw [h.operation] at hrow; cases hrow
  waiting row hrow := by rw [h.operation] at hrow; cases hrow
  acquired row hrow := by rw [h.operation] at hrow; cases hrow
  source source hsource := by rw [h.source] at hsource; cases hsource

end Agora.Ingestion
