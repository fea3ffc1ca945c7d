import Agora.Impact.Exactness
import Agora.Ledger.Event

namespace Agora.Impact

open Ledger (NonBlank)

/-!
# Retraction of a source

`retract_source` analyses the source, and `retract_and_report` marks it as retracted and stores the
report.  A second command would be answered from the stored report, but the analysis comes first and
does not lock a retracted source: an equal command is refused like a different one
(`retractSource_again_iff`).
-/

/-! ### Rows -/

/-- A command, and the row of `source_retractions` that it leaves. -/
structure SourceRetractionCommand where
  retractionId : UUID
  workspaceId : UUID
  sourceId : UUID
  actorId : UUID
  reason : NonBlank
  retractedAt : Datetime

structure ImpactReportRow where
  id : UUID
  workspaceId : UUID
  sourceId : UUID
  retractionId : UUID
  eventId : UUID
  actorId : UUID
  reason : NonBlank
  generatedAt : Datetime
  analysisStatus : ImpactAnalysisStatus
  complete : Bool
  truncated : Bool
  error : Option String

structure ImpactReportDependencyRow where
  workspaceId : UUID
  reportId : UUID
  dependency : ImpactDependency

structure SourceImpactReport extends ImpactReportRow where
  dependencies : List ImpactDependency

/-- A row of `workspace_event_outbox` for a retraction. -/
structure OutboxEvent where
  id : UUID
  workspaceId : UUID
  correlationId : UUID
  actorId : UUID
  payload : SourceImpactReport
  recordedAt : Datetime

structure ImpactStore where
  tables : ReasoningTables
  sources : List Source
  /-- The active members, by workspace. -/
  activeMembers : List (UUID × UUID)
  retractions : List SourceRetractionCommand
  reports : List ImpactReportRow
  reportDependencies : List ImpactReportDependencyRow
  outbox : List OutboxEvent

inductive RetractionError where
  | impact (e : ImpactError)
  | integrity (key : String)

/-! ### The repository -/

namespace ImpactStore

variable (db : ImpactStore)

/-- Whether a row is the source of a command. -/
def isSource (workspaceId sourceId : UUID) (s : Source) : Bool :=
  s.workspaceId = workspaceId ∧ s.id = sourceId

/-- `SqlAlchemyCitationRepository.retract_source`. -/
def markRetracted (command : SourceRetractionCommand) : Except RetractionError ImpactStore :=
  if db.sources.any (fun s => isSource command.workspaceId command.sourceId s
        && decide (s.status ≠ .retracted))
      ∧ (command.workspaceId, command.actorId) ∈ db.activeMembers then
    if db.retractions.any fun r => r.retractionId = command.retractionId
        ∨ (r.workspaceId = command.workspaceId ∧ r.sourceId = command.sourceId) then
      .error (.integrity "source_retractions")
    else .ok { db with
      sources := db.sources.map fun s =>
        if isSource command.workspaceId command.sourceId s then { s with status := .retracted } else s
      retractions := db.retractions ++ [command] }
  else
    .error (.impact (.citation
      "source does not exist, actor is invalid, or source is already retracted"))

/-- `get_report`, of a row that is there. -/
def getReport (row : ImpactReportRow) : SourceImpactReport where
  toImpactReportRow := row
  dependencies := ((db.reportDependencies.filter fun d =>
    d.workspaceId = row.workspaceId ∧ d.reportId = row.id).map (·.dependency)).insertionSort
      fun a b => dependencyKey a ≤ dependencyKey b

def reportOf? (workspaceId sourceId : UUID) : Option ImpactReportRow :=
  db.reports.find? fun r => r.workspaceId = workspaceId ∧ r.sourceId = sourceId

def retractAndReport (command : SourceRetractionCommand) (reportId eventId correlationId : UUID)
    (analysis : ImpactAnalysisResult) : Except RetractionError (SourceImpactReport × ImpactStore) :=
  match db.reportOf? command.workspaceId command.sourceId with
  | some existing =>
    if existing.actorId ≠ command.actorId ∨ existing.reason ≠ command.reason then
      .error (.impact (.citation "source was already retracted with different command content"))
    else .ok (db.getReport existing, db)
  | none => do
    let db ← db.markRetracted command
    let row : ImpactReportRow :=
      { id := reportId
        workspaceId := command.workspaceId
        sourceId := command.sourceId
        retractionId := command.retractionId
        eventId
        actorId := command.actorId
        reason := command.reason
        generatedAt := command.retractedAt
        analysisStatus := analysis.status
        complete := analysis.complete
        truncated := analysis.truncated
        error := analysis.error }
    let report : SourceImpactReport := ⟨row, analysis.dependencies⟩
    if db.reports.any fun r => r.id = reportId ∨ (r.workspaceId = command.workspaceId
        ∧ (r.retractionId = command.retractionId ∨ r.eventId = eventId)) then
      .error (.integrity "impact_reports")
    else if db.outbox.any (·.id = eventId) then .error (.integrity "workspace_event_outbox")
    else
      pure (report, { db with
        reports := db.reports ++ [row]
        reportDependencies := db.reportDependencies
          ++ analysis.dependencies.map (⟨command.workspaceId, reportId, ·⟩)
        outbox := db.outbox ++ [⟨eventId, command.workspaceId, correlationId, command.actorId, report,
          command.retractedAt⟩] })

end ImpactStore

/-! ### The service -/

section Service

variable {κ : Type} (trace : ReasoningTables → TraceForward κ) (maxDepth fuel : ℕ)

/-- `SourceImpactService.retract_source`. -/
def retractSource (db : ImpactStore) (command : SourceRetractionCommand)
    (reportId eventId correlationId : UUID) :
    Except RetractionError (SourceImpactReport × ImpactStore) := do
  let analysis ← (impactOf (trace db.tables) maxDepth fuel db.tables command.workspaceId
    command.sourceId db.sources).mapError .impact
  db.retractAndReport command reportId eventId correlationId analysis

/-- The rows of a source are as they were. -/
def SameSource (workspaceId sourceId : UUID) (db db' : ImpactStore) : Prop :=
  db'.sources.filter (ImpactStore.isSource workspaceId sourceId)
    = db.sources.filter (ImpactStore.isSource workspaceId sourceId)

/-- A later state of the store: other sources have been retracted, and anything else that does not
    touch the source has been done. -/
inductive Later (workspaceId sourceId : UUID) : ImpactStore → ImpactStore → Prop
  | refl (db : ImpactStore) : Later workspaceId sourceId db db
  | retract {db before after : ImpactStore} {fuel : ℕ} {command : SourceRetractionCommand}
      {reportId eventId correlationId : UUID} {report : SourceImpactReport} :
      Later workspaceId sourceId db before →
      ¬ (command.workspaceId = workspaceId ∧ command.sourceId = sourceId) →
      retractSource trace maxDepth fuel before command reportId eventId correlationId
        = .ok (report, after) → Later workspaceId sourceId db after
  | other {db before after : ImpactStore} : Later workspaceId sourceId db before →
      SameSource workspaceId sourceId before after → Later workspaceId sourceId db after

/-- What a second command should get: the stored report for the same actor and reason, a
    `CitationError` for others, and a store that is as it was. -/
def AnsweredAgain (db : ImpactStore) (first second : SourceRetractionCommand)
    (report : SourceImpactReport)
    (answer : Except RetractionError (SourceImpactReport × ImpactStore)) : Prop :=
  if second.actorId = first.actorId ∧ second.reason = first.reason then answer = .ok (report, db)
  else ∃ message, answer = .error (.impact (.citation message))

variable {trace maxDepth fuel} {db db' : ImpactStore} {command : SourceRetractionCommand}
  {reportId eventId correlationId : UUID} {report : SourceImpactReport}

theorem markRetracted_sources (h : db.markRetracted command = .ok db') :
    db'.sources = db.sources.map fun s =>
      if ImpactStore.isSource command.workspaceId command.sourceId s
      then { s with status := .retracted } else s := by
  unfold ImpactStore.markRetracted at h
  split_ifs at h
  obtain rfl := Except.ok.inj h
  rfl

/-- The lock is what a retracted source is refused by. -/
theorem retractSource_lock
    (h : lockSourceForAnalysis db.sources command.workspaceId command.sourceId ≠ .ok ()) :
    retractSource trace maxDepth fuel db command reportId eventId correlationId
      = .error (.impact (.citation "source does not exist or is already retracted")) := by
  unfold lockSourceForAnalysis at h
  split_ifs at h with hany
  · exact absurd rfl h
  · rw [retractSource, impactOf, lockSourceForAnalysis, if_neg hany]
    rfl

/-- **Publication.**  A first report comes with the retraction of the source. -/
theorem retractSource_sources
    (h : retractSource trace maxDepth fuel db command reportId eventId correlationId = .ok (report, db'))
    (hfirst : db.reportOf? command.workspaceId command.sourceId = none) :
    db'.sources = db.sources.map fun s =>
      if ImpactStore.isSource command.workspaceId command.sourceId s
      then { s with status := .retracted } else s := by
  obtain ⟨analysis, -, h⟩ := Except.bind_eq_ok.mp h
  unfold ImpactStore.retractAndReport at h
  rw [hfirst] at h
  obtain ⟨marked, hmarked, h⟩ := Except.bind_eq_ok.mp h
  split_ifs at h
  obtain ⟨-, rfl⟩ := Prod.mk.inj (Except.ok.inj h)
  show marked.sources = _
  exact markRetracted_sources hmarked

theorem isSource_retracted (workspaceId sourceId : UUID) (s : Source) :
    ImpactStore.isSource workspaceId sourceId { s with status := .retracted }
      = ImpactStore.isSource workspaceId sourceId s := rfl

/-- **Frame.**  The retraction of another source keeps the rows of this one. -/
theorem sameSource_of_retract {workspaceId sourceId : UUID}
    (hother : ¬ (command.workspaceId = workspaceId ∧ command.sourceId = sourceId))
    (h : retractSource trace maxDepth fuel db command reportId eventId correlationId
      = .ok (report, db')) : SameSource workspaceId sourceId db db' := by
  unfold SameSource
  cases hfirst : db.reportOf? command.workspaceId command.sourceId with
  | none =>
    have hsources := retractSource_sources h hfirst
    rw [hsources]
    generalize db.sources = sources
    induction sources with
    | nil => rfl
    | cons s sources ih =>
      rw [List.map_cons, List.filter_cons, List.filter_cons, ih]
      by_cases hs : ImpactStore.isSource command.workspaceId command.sourceId s = true
      · have hnot : ImpactStore.isSource workspaceId sourceId s = false := by
          simp only [ImpactStore.isSource, decide_eq_true_eq, decide_eq_false_iff_not] at hs ⊢
          rintro ⟨rfl, rfl⟩
          exact hother ⟨hs.1.symm, hs.2.symm⟩
        rw [if_pos hs, isSource_retracted, hnot]
        rfl
      · rw [if_neg hs]
  | some existing =>
    obtain ⟨analysis, -, h⟩ := Except.bind_eq_ok.mp h
    unfold ImpactStore.retractAndReport at h
    rw [hfirst] at h
    dsimp only at h
    split_ifs at h
    obtain ⟨-, rfl⟩ := Prod.mk.inj (Except.ok.inj h)
    rfl

theorem Later.sameSource {workspaceId sourceId : UUID}
    (h : Later trace maxDepth workspaceId sourceId db db') : SameSource workspaceId sourceId db db' := by
  induction h with
  | refl => exact rfl
  | retract _ hother hretract ih => exact (sameSource_of_retract hother hretract).trans ih
  | other _ hsame ih => exact hsame.trans ih

/-- A source that has been retracted cannot be locked. -/
theorem lock_of_retracted (h : ∀ s ∈ db.sources,
      ImpactStore.isSource command.workspaceId command.sourceId s = true → s.status = .retracted) :
    lockSourceForAnalysis db.sources command.workspaceId command.sourceId ≠ .ok () := by
  unfold lockSourceForAnalysis
  rw [if_neg]
  · simp
  · rw [List.any_eq_true]
    rintro ⟨s, hs, hready⟩
    obtain ⟨hworkspace, hid, hstatus⟩ := of_decide_eq_true hready
    exact hstatus (h s hs (decide_eq_true ⟨hworkspace, hid⟩))

/-- **Replay.**  After a first retraction, a second command for the source is answered as it should be
    exactly when its actor or its reason is another. -/
theorem retractSource_again_iff {later : ImpactStore} {again : SourceRetractionCommand}
    {reportId' eventId' correlationId' : UUID} {fuel' : ℕ}
    (hfirst : db.reportOf? command.workspaceId command.sourceId = none)
    (h : retractSource trace maxDepth fuel db command reportId eventId correlationId = .ok (report, db'))
    (hlater : Later trace maxDepth command.workspaceId command.sourceId db' later)
    (hworkspace : again.workspaceId = command.workspaceId) (hsource : again.sourceId = command.sourceId) :
    AnsweredAgain later command again report
        (retractSource trace maxDepth fuel' later again reportId' eventId' correlationId')
      ↔ again.actorId ≠ command.actorId ∨ again.reason ≠ command.reason := by
  have hretracted : ∀ s ∈ later.sources,
      ImpactStore.isSource again.workspaceId again.sourceId s = true → s.status = .retracted := by
    rw [hworkspace, hsource]
    intro s hs hsource
    have hrow : s ∈ db'.sources.filter
        (ImpactStore.isSource command.workspaceId command.sourceId) := by
      rw [← hlater.sameSource]
      exact List.mem_filter.mpr ⟨hs, hsource⟩
    rw [retractSource_sources h hfirst] at hrow
    obtain ⟨before, -, rfl⟩ := List.mem_map.mp (List.mem_filter.mp hrow).1
    by_cases hbefore : ImpactStore.isSource command.workspaceId command.sourceId before = true
    · rw [if_pos hbefore]
    · rw [if_neg hbefore] at hsource
      exact absurd hsource hbefore
  rw [retractSource_lock (lock_of_retracted hretracted)]
  unfold AnsweredAgain
  by_cases hsame : again.actorId = command.actorId ∧ again.reason = command.reason
  · simp [hsame]
  · rw [if_neg hsame]
    have hdiffers : again.actorId ≠ command.actorId ∨ again.reason ≠ command.reason := by
      rw [not_and_or] at hsame
      exact hsame
    exact ⟨fun _ => hdiffers, fun _ => ⟨_, rfl⟩⟩

end Service

/-! ### A retraction -/

def sampleStore : ImpactStore where
  tables := pair
  sources := [readySource]
  activeMembers := [(smallId 0, smallId 5)]
  retractions := []
  reports := []
  reportDependencies := []
  outbox := []

def sampleRetraction (reason : NonBlank) : SourceRetractionCommand where
  retractionId := smallId 6
  workspaceId := smallId 0
  sourceId := smallId 0
  actorId := smallId 5
  reason := reason
  retractedAt := ⟨⟨2026, 9, 5, valid2026, validSeptember, validFifth⟩, 12, 0, 0, 0, validNoon⟩

def correction : NonBlank := ⟨"publisher correction", by decide⟩

theorem exists_retraction : ∃ fuel report db', retractSource ReasoningTables.traceForward
    defaultMaxDepth fuel sampleStore (sampleRetraction correction) (smallId 7) (smallId 8) (smallId 9)
      = .ok (report, db') := by
  obtain ⟨fuel, result, hresult, -⟩ := (eventually_impactOf
    (serves_traceForward (t := pair) le_rfl) lock_readySource).exists
  refine ⟨fuel, ?_⟩
  unfold retractSource
  rw [show impactOf (ReasoningTables.traceForward sampleStore.tables) defaultMaxDepth fuel
    sampleStore.tables (sampleRetraction correction).workspaceId (sampleRetraction correction).sourceId
    sampleStore.sources = .ok result from hresult]
  have hmark : ∃ marked, sampleStore.markRetracted (sampleRetraction correction) = .ok marked
      ∧ marked.reports = [] ∧ marked.outbox = [] := by
    unfold ImpactStore.markRetracted
    rw [if_pos (by simp [sampleStore, sampleRetraction, readySource, ImpactStore.isSource]),
      if_neg (by simp [sampleStore])]
    exact ⟨_, rfl, rfl, rfl⟩
  obtain ⟨marked, hmark, hreports, houtbox⟩ := hmark
  show ∃ report db', sampleStore.retractAndReport (sampleRetraction correction) (smallId 7) (smallId 8)
    (smallId 9) result = .ok (report, db')
  unfold ImpactStore.retractAndReport
  rw [show sampleStore.reportOf? _ _ = none from rfl]
  dsimp only
  rw [hmark, Except.ok_bind, if_neg (by simp [hreports]), if_neg (by simp [houtbox])]
  exact ⟨_, _, rfl⟩

theorem retractSource_again_iff_sample : ∃ fuel report db', retractSource ReasoningTables.traceForward
    defaultMaxDepth fuel sampleStore (sampleRetraction correction) (smallId 7) (smallId 8) (smallId 9)
      = .ok (report, db')
    ∧ ∀ reason, (AnsweredAgain db' (sampleRetraction correction) (sampleRetraction reason) report
        (retractSource ReasoningTables.traceForward defaultMaxDepth fuel db' (sampleRetraction reason)
          (smallId 7) (smallId 8) (smallId 9))
      ↔ smallId 5 ≠ smallId 5 ∨ reason ≠ correction) := by
  obtain ⟨fuel, report, db', h⟩ := exists_retraction
  exact ⟨fuel, report, db', h, fun reason =>
    retractSource_again_iff rfl h (.refl db') rfl rfl⟩

/-- The same command is refused the second time. -/
theorem retractSource_not_idempotent : ∃ fuel report db', retractSource ReasoningTables.traceForward
    defaultMaxDepth fuel sampleStore (sampleRetraction correction) (smallId 7) (smallId 8) (smallId 9)
      = .ok (report, db')
    ∧ ∀ fuel', ¬ AnsweredAgain db' (sampleRetraction correction) (sampleRetraction correction) report
      (retractSource ReasoningTables.traceForward defaultMaxDepth fuel' db' (sampleRetraction correction)
        (smallId 7) (smallId 8) (smallId 9)) := by
  obtain ⟨fuel, report, db', h⟩ := exists_retraction
  refine ⟨fuel, report, db', h, fun fuel' hanswer => ?_⟩
  have hretracted : ∀ s ∈ db'.sources, ImpactStore.isSource (smallId 0) (smallId 0) s = true →
      s.status = .retracted := by
    rw [retractSource_sources h rfl]
    simp [sampleStore, readySource, sampleRetraction, ImpactStore.isSource]
  rw [retractSource_lock (lock_of_retracted hretracted)]
    at hanswer
  rw [AnsweredAgain, if_pos ⟨rfl, rfl⟩] at hanswer
  cases hanswer

end Agora.Impact
