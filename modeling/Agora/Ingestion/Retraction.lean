import Agora.Ingestion.Finality

namespace Agora.Ingestion

open Stateful

/-!
# Retraction of a source that is ingested

A retraction and the calls of an operation write the same status.  A source that has been retracted
stays so, but a call that would give it another status is refused by the database, on every retry:
`complete`, and a permanent failure of parsing.
-/

variable {c : IngestSourceInput} {s t : KnowledgeTables} {σ : System} {now : Datetime}

/-! ### The retraction -/

structure SourceRetractionCommand where
  retractionId : UUID
  workspaceId : UUID
  sourceId : UUID
  actorId : UUID
  reason : String
  retractedAt : Datetime
  notBlank : isBlank reason = false

def SourceRow.retracted (row : SourceRow) (command : SourceRetractionCommand) : SourceRow :=
  { row with
    status := .retracted, retractedAt := some command.retractedAt
    retractionReason := some command.reason }

def SourceRetractionCommand.row (command : SourceRetractionCommand) : SourceRetractionRow where
  id := command.retractionId
  workspaceId := command.workspaceId
  sourceId := command.sourceId
  actorId := command.actorId
  reason := command.reason
  retractedAt := command.retractedAt

namespace KnowledgeTables

def withRetraction (s : KnowledgeTables) (row : SourceRetractionRow) : KnowledgeTables :=
  { s with retractions := s.retractions ++ [row] }

/-- The keys of a retraction are new: its id, and its source. -/
def freshRetraction (s : KnowledgeTables) (row : SourceRetractionRow) : Bool :=
  s.retractions.all fun other => other.id ≠ row.id
    && !(other.workspaceId = row.workspaceId && other.sourceId = row.sourceId)

end KnowledgeTables

/-- `retract_source`; `active` says which users are active members of a workspace. -/
def retractSource (active : UUID → UUID → Bool) (command : SourceRetractionCommand) :
    Statement Unit := rollback do
  let found := (← read (·.source? command.sourceId)).filter fun source =>
    source.workspaceId = command.workspaceId && source.status ≠ .retracted
      && active command.workspaceId command.actorId
  let source ← required found
    (.citationError "source does not exist, actor is invalid, or source is already retracted")
  updateSource source (source.retracted command)
  flush (·.freshRetraction command.row) (·.withRetraction command.row)

/-- A source is retracted with the time and the reason of the command. -/
def IsRetracted (c : IngestSourceInput) (command : SourceRetractionCommand) (s : KnowledgeTables) : Prop :=
  ∃ source ∈ s.source? c.sourceId, source.status = .retracted
    ∧ source.retractedAt = some command.retractedAt ∧ source.retractionReason = some command.reason

/-- What a retraction that returns has needed, and what it has written. -/
theorem of_retractSource {active : UUID → UUID → Bool} {command : SourceRetractionCommand}
    (h : retractSource active command s = (.ok (), t)) : ∃ source, s.source? command.sourceId = some source
      ∧ source.status ≠ .retracted ∧ (source.retracted command).accepted = true
      ∧ t = (s.withSource (source.retracted command)).withRetraction command.row := by
  unfold retractSource at h
  rw [rollback_eq_ok, read_bind] at h
  obtain ⟨source, hfound, h⟩ := required_bind_eq_ok.mp h
  obtain ⟨hsource, hconditions⟩ := Option.filter_eq_some_iff.mp hfound
  obtain ⟨hbecome, h⟩ := flush_bind_eq_ok.mp h
  obtain ⟨-, rfl⟩ := flush_eq_ok.mp h
  simp only [Bool.and_eq_true, decide_eq_true_eq] at hbecome hconditions
  exact ⟨source, hsource, hconditions.1.2, hbecome.2, rfl⟩

theorem source?_retracted {source : SourceRow} {command : SourceRetractionCommand}
    (hsource : s.source? command.sourceId = some source) (id : UUID) :
    ((s.withSource (source.retracted command)).withRetraction command.row).source? id
      = if command.sourceId = id then some (source.retracted command) else s.source? id := by
  show (s.withSource (source.retracted command)).source? id = _
  rw [KnowledgeTables.source?_withSource]
  have hid : source.id = command.sourceId := KnowledgeTables.source?_id hsource
  show (if source.id = id then _ else _) = _
  rw [hid]

/-- What retracts the source of the operation leaves it retracted. -/
theorem isRetracted_of_retractSource {active : UUID → UUID → Bool} {command : SourceRetractionCommand}
    (hid : command.sourceId = c.sourceId) (h : retractSource active command s = (.ok (), t)) :
    IsRetracted c command t := by
  obtain ⟨source, hsource, -, -, rfl⟩ := of_retractSource h
  refine ⟨source.retracted command, ?_, rfl, rfl, rfl⟩
  rw [source?_retracted hsource, if_pos hid]
  rfl

/-- **Retraction.**  What is stored of an operation still matches after a retraction, of any source. -/
theorem Matching.retract (h : Matching c s) {active : UUID → UUID → Bool}
    {command : SourceRetractionCommand} (hretract : retractSource active command s = (.ok (), t)) :
    Matching c t ∧ Later c s t := by
  obtain ⟨source, hsource, -, haccepted, rfl⟩ := of_retractSource hretract
  have hnew : ((s.withSource (source.retracted command)).withRetraction command.row).source? c.sourceId
      = if command.sourceId = c.sourceId then some (source.retracted command) else s.source? c.sourceId :=
    source?_retracted hsource c.sourceId
  have hsucceeded : Succeeded c ((s.withSource (source.retracted command)).withRetraction command.row)
      ↔ Succeeded c s := Iff.rfl
  refine ⟨⟨⟨fun hnone => ?_, h.sound.identity, h.sound.consistent, h.sound.waiting, h.sound.acquired,
    fun other hother => ?_⟩, h.object, fun other hother => ?_, h.document⟩,
    ⟨id, fun hobject => ⟨hobject.1, ?_⟩, fun hdone => ⟨hdone, rfl, rfl⟩⟩⟩
  · have hmissing := h.sound.missing hnone
    rw [hnew]
    split_ifs with hid
    · rw [hid, hmissing] at hsource
      cases hsource
    · exact hmissing
  · rw [hnew] at hother
    split_ifs at hother with hid
    · obtain rfl := Option.some.inj hother
      exact haccepted
    · exact h.sound.source other hother
  · rw [hnew] at hother
    split_ifs at hother with hid
    · obtain rfl := Option.some.inj hother
      exact h.source source (hid ▸ hsource)
    · exact h.source other hother
  · rw [hnew]
    split_ifs
    · exact Option.some_ne_none _
    · exact hobject.2

/-- A source that is retracted stays so in the calls of its operation. -/
theorem IsRetracted.effect {command : SourceRetractionCommand} (h : IsRetracted c command s)
    (hsound : Sound c s) {call : StoreCall} (heffect : Effect c s call t) : IsRetracted c command t := by
  obtain ⟨source, hsource, hstatus, hfacts⟩ := h
  have hof (u : KnowledgeTables) (hu : u.source? c.sourceId = some source) : IsRetracted c command u :=
    ⟨source, hu, hstatus, hfacts⟩
  cases heffect with
  | unchanged => exact hof _ hsource
  | started => exact hof _ hsource
  | restarted => exact hof _ hsource
  | acquired now hrow hparse hkind hacquired =>
    refine hof _ ?_
    rw [KnowledgeTables.source?_withOperation, (source?_acquired hacquired).1, Option.mem_def.mp hsource]
    rfl
  | completed now hrow hparse hobject hdocument hother htakes hnot =>
    obtain rfl := Option.some.inj (hsource.symm.trans hother)
    exact absurd hstatus hnot
  | failed now hrow hparse hstage hfailed =>
    obtain ⟨hnew, hmarked, -⟩ := source?_failed hfailed
    refine hof _ ?_
    rw [KnowledgeTables.source?_withOperation, hnew, Option.mem_def.mp hsource, Option.map_some, if_neg]
    exact fun hboth => (hmarked hboth source hsource).2 hstatus
  | advanced now hrow hmay hdetails hrows =>
    rename_i row stage state code kind detail u
    obtain ⟨-, hsourceId, -⟩ := ids_of_identity (hsound.identity row hrow)
    obtain ⟨hnew, hmarked, -⟩ := rows_downstream hrows
    rw [hsourceId] at hnew hmarked
    refine hof _ ?_
    rw [KnowledgeTables.source?_withOperation, hnew, Option.mem_def.mp hsource, Option.map_some, if_neg]
    exact fun hboth => (hmarked hboth source hsource).2 hstatus

/-- No later retraction changes it. -/
theorem IsRetracted.retract {command other : SourceRetractionCommand} (h : IsRetracted c command s)
    {active : UUID → UUID → Bool} (hretract : retractSource active other s = (.ok (), t)) :
    IsRetracted c command t := by
  obtain ⟨stored, hstored, hnot, -, rfl⟩ := of_retractSource hretract
  obtain ⟨source, hsource, hstatus, hfacts⟩ := h
  refine ⟨source, ?_, hstatus, hfacts⟩
  rw [source?_retracted hstored]
  split_ifs with hid
  · rw [hid] at hstored
    obtain rfl := Option.some.inj (hsource.symm.trans hstored)
    exact absurd hstatus hnot
  · exact hsource

/-! ### Runs with retractions -/

/-- A step of the operation, or a retraction of any source. -/
inductive Event where
  | ingest (step : Step)
  | retract (command : SourceRetractionCommand)

def System.observe (c : IngestSourceInput) (active : UUID → UUID → Bool) : Event → System → Unit × System
  | .ingest step, σ => exec c step σ
  | .retract command, σ => ((), { σ with tables := (retractSource active command σ.tables).2 })

/-- The answer of the store to the call that a step makes. -/
def System.answer (c : IngestSourceInput) (σ : System) : Step → Option (Except Raised Answer)
  | .spawn _ => none
  | .advance i _ now => (σ.runners[i]?.bind (·.phase.call c)).map fun call => (perform call now σ.tables).1
  | .downstream stage state code kind detail now =>
    some (perform (.recordDownstreamStage c.workspaceId c.operationId stage state code kind detail) now
      σ.tables).1

/-- The call commits, or a port raises. -/
def Clean (c : IngestSourceInput) (σ : System) (step : Step) : Prop :=
  ∀ answer ∈ σ.answer c step, ∀ e, answer = .error e → e.isPortError = true

/-- A runner that the database does not refuse, once the source is retracted: it has nothing to
    complete, and does not fail in parsing for good, nor after a failure of acquiring. -/
def Phase.Smooth (c : IngestSourceInput) (s : KnowledgeTables) : Phase → Prop
  | .completing _ _ _ => Succeeded c s
  | .failing stage failure _ _ => ¬Succeeded c s → stage = .parse → failure.kind = .transient
    ∧ ∀ row ∈ s.operation? c.operationId, row.acquireState ≠ .failed
  | _ => True

/-- The step is not refused: a stage after parsing comes with the details that its state needs, and the
    last one does not succeed. -/
def Smooth (c : IngestSourceInput) (σ : System) : Step → Prop
  | .spawn _ => True
  | .advance i _ _ => ∀ r ∈ σ.runners[i]?, r.phase.Smooth c σ.tables
  | .downstream stage state code kind detail _ => validDetails state code kind detail = .ok ()
    ∧ (stage = .index → state = .succeeded → ∀ row ∈ σ.tables.operation? c.operationId,
        mayAdvance row stage state ≠ .ok ())

theorem Coherent.observe (h : Coherent c σ) (active : UUID → UUID → Bool) (event : Event) :
    Coherent c (System.observe c active event σ).2 := by
  cases event with
  | ingest step => exact (h.exec step).1
  | retract command =>
    have hboth : Matching c (retractSource active command σ.tables).2
        ∧ Later c σ.tables (retractSource active command σ.tables).2 := by
      cases hanswer : (retractSource active command σ.tables).1 with
      | ok u => exact h.tables.retract (Prod.ext hanswer rfl)
      | error e =>
        rw [retractSource, rollback_snd_of_error hanswer]
        exact ⟨h.tables, .refl _⟩
    exact ⟨hboth.1, fun r hr => (h.phases r hr).later hboth.2⟩

theorem IsRetracted.observe {command : SourceRetractionCommand} (h : IsRetracted c command σ.tables)
    (hcoherent : Coherent c σ) (active : UUID → UUID → Bool) (event : Event) :
    IsRetracted c command (System.observe c active event σ).2.tables := by
  cases event with
  | ingest step =>
    rcases System.effect_exec hcoherent.tables.sound step with hsame | ⟨call, -, heffect⟩
    · show IsRetracted c command (System.exec c step σ).2.tables
      rw [hsame]
      exact h
    · exact h.effect hcoherent.tables.sound heffect
  | retract other =>
    show IsRetracted c command (retractSource active other σ.tables).2
    cases hanswer : (retractSource active other σ.tables).1 with
    | error e =>
      rw [retractSource, rollback_snd_of_error hanswer]
      exact h
    | ok u => exact h.retract (Prod.ext hanswer rfl)

/-! ### Answers -/

/-- Acquiring raises nothing but that the ingestion has failed before. -/
theorem acquired_error (h : Matching c s) {row : IngestionOperationRow}
    (hrow : s.operation? c.operationId = some row) {e : Raised}
    (herror : (acquired c c.objectReference now s).1 = .error e) : e.isPortError = true := by
  have hnot : ¬(row.parseState = .succeeded ∨ row.failureKind ≠ some .permanent) := by
    intro hkind
    rw [acquired_of h hrow hkind now] at herror
    cases herror
  rw [not_or, not_not] at hnot
  have hbefore : checkpoint row = .ok ⟨row, h.sound.consistent row hrow⟩ := checkpoint_eq_ok.mpr rfl
  rw [acquired, fst_of_locked h.sound hrow, hbefore] at herror
  change ((ite (row.parseState = .succeeded) _ _ : Statement Unit) s).1 = _ at herror
  rw [if_neg hnot.1, bind_apply, ensure, if_neg (not_not.mpr hnot.2)] at herror
  obtain rfl := Except.error.inj herror
  rfl

theorem mayAdvance_error {row : IngestionOperationRow} {stage : DownstreamStage}
    {state : IngestionStageState} {e : Raised} (h : mayAdvance row stage state = .error e) :
    e.isPortError = true := by
  unfold mayAdvance at h
  split_ifs at h <;> (obtain rfl := Except.error.inj h; rfl)

theorem wrapped_fst {α β : Type} {x : Statement α} {f : α → β} {e : Raised} :
    ((x >>= fun a => pure (f a)) s).1 = .error e ↔ (x s).1 = .error e := by
  rw [bind_pure_apply]
  cases (x s).1 with
  | ok a => exact iff_of_false nofun nofun
  | error e' => exact ⟨fun h => congrArg Except.error (Except.error.inj h), fun h =>
      congrArg Except.error (Except.error.inj h)⟩

/-- The tables of an operation whose source is retracted. -/
theorem IsRetracted.row {command : SourceRetractionCommand} (h : IsRetracted c command s)
    (hsound : Sound c s) : ∃ row, s.operation? c.operationId = some row := by
  obtain ⟨source, hsource, -⟩ := h
  cases hrow : s.operation? c.operationId with
  | some row => exact ⟨row, rfl⟩
  | none =>
    rw [hsound.missing hrow] at hsource
    cases hsource

/-- The answers of the phases. -/
theorem Phase.clean_iff {command : SourceRetractionCommand} (h : Matching c s)
    (hretracted : IsRetracted c command s) {phase : Phase} (hfits : phase.Fits c s) (now : Datetime) :
    (∀ call ∈ phase.call c, ∀ e, (perform call now s).1 = .error e → e.isPortError = true)
      ↔ phase.Smooth c s := by
  obtain ⟨row, hrow⟩ := hretracted.row h.sound
  obtain ⟨source, hsource, hstatus, -⟩ := hretracted
  have hcall {call : StoreCall} (hcall : phase.call c = some call) :
      (∀ call ∈ phase.call c, ∀ e, (perform call now s).1 = .error e → e.isPortError = true)
        ↔ ∀ e, (perform call now s).1 = .error e → e.isPortError = true := by
    simp only [hcall, Option.mem_def, Option.some.injEq, forall_eq']
  cases phase with
  | ended outcome => exact iff_of_true (fun call hmem => by cases hmem) trivial
  | starting =>
    refine (hcall rfl).trans (iff_of_true (fun e he => ?_) trivial)
    obtain ⟨k, hk⟩ := start_of_row h.sound hrow now
    rw [wrapped_fst.mp he] at hk
    cases hk
  | reading =>
    refine (hcall rfl).trans (iff_of_true (fun e he => ?_) trivial)
    obtain ⟨r, hr⟩ := result_of h.sound hfits
    have herror := wrapped_fst.mp he
    rw [hr] at herror
    cases herror
  | acquiring body =>
    exact (hcall rfl).trans (iff_of_true (fun e he => acquired_error h hrow (wrapped_fst.mp he)) trivial)
  | failing stage failure objectRef raised =>
    refine (hcall rfl).trans ?_
    simp only [perform, wrapped_fst]
    have hoff : (∀ e, (fail c stage failure objectRef now s).1 = .error e → e.isPortError = true)
        ↔ ∃ t, fail c stage failure objectRef now s = (.ok (), t) := by
      constructor
      · intro hall
        cases hanswer : (fail c stage failure objectRef now s).1 with
        | ok u => exact ⟨_, Prod.ext hanswer rfl⟩
        | error e => exact absurd ((fail_error h.sound hrow hanswer).symm.trans (hall e hanswer)) (by decide)
      · rintro ⟨t, ht⟩ e he
        rw [ht] at he
        cases he
    rw [hoff]
    by_cases hparse : row.parseState = .succeeded
    · refine iff_of_true ⟨s, ?_⟩ fun hnot => absurd ((succeeded_iff hrow).mpr hparse) hnot
      exact fail_eq_ok.mpr ⟨row, hrow, h.sound.identity row hrow, .inl ⟨hparse, rfl⟩⟩
    · rw [fail_ok_iff h.sound hrow hparse, Smooth, forall_prop_of_true (mt (succeeded_iff hrow).mp hparse)]
      have hmarked : (∀ other ∈ s.source? c.sourceId, other.status ≠ .retracted) ↔ False :=
        iff_false_intro fun hall => hall source hsource hstatus
      rw [hmarked, hrow]
      simp only [Option.mem_def, Option.some.injEq, forall_eq', imp_false]
      cases hkind : failure.kind with
      | permanent => cases stage <;> simp
      | transient => simp
  | completing document chunks warnings =>
    refine (hcall rfl).trans ?_
    simp only [perform, wrapped_fst]
    constructor
    · intro hall
      by_contra hnot
      have hparse := mt (succeeded_iff hrow).mpr hnot
      cases hanswer : (complete c c.objectReference document chunks warnings now s).1 with
      | error e =>
        exact absurd ((complete_error h hfits.1 hanswer).symm.trans (hall e hanswer)) (by decide)
      | ok r =>
        have hok := (complete_ok_iff h hrow hparse (hfits.1.resolve_left hnot) hsource).mp
          ⟨r, _, Prod.ext hanswer rfl⟩
        exact hok.2 hstatus
    · intro hdone e he
      have hparse := (succeeded_iff hrow).mp hdone
      rw [complete, fst_of_locked h.sound hrow, if_pos hparse] at he
      cases he

/-- A stage after parsing marks its rows, unless it is the last one that succeeds. -/
theorem downstreamRows_ok {row : IngestionOperationRow} {stage : DownstreamStage}
    {state : IngestionStageState} (hnot : ¬(stage = .index ∧ state = .succeeded)) (s : KnowledgeTables) :
    ∃ t, downstreamRows row stage state s = (.ok (), t) := by
  by_cases hembed : stage = .embed ∧ state = .succeeded
  · obtain ⟨rfl, rfl⟩ := hembed
    show ∃ t, advancedDocument row .embedded s = (.ok (), t)
    unfold advancedDocument
    rw [read_bind]
    cases s.document? row.documentId with
    | none => exact ⟨s, rfl⟩
    | some document => exact ⟨_, flush_eq_ok.mpr ⟨rfl, rfl⟩⟩
  · have hpure : downstreamRows row stage state = pure () := by
      cases stage <;> cases state
      case embed.succeeded => exact absurd ⟨rfl, rfl⟩ hembed
      case index.succeeded => exact absurd ⟨rfl, rfl⟩ hnot
      all_goals rfl
    exact ⟨s, by rw [hpure]; rfl⟩

/-- What a stage after parsing writes. -/
def downstreamWrites (row : IngestionOperationRow) (stage : DownstreamStage) (state : IngestionStageState)
    (code : Option IngestionFailureCode) (kind : Option IngestionFailureKind) (detail : Option String)
    (now : Datetime) : Statement IngestionCheckpoint := do
  downstreamRows row stage state
  updateOperation (row.advanced stage state code kind detail now)
  lift (checkpoint (row.advanced stage state code kind detail now))

section Downstream

variable {row : IngestionOperationRow} {stage : DownstreamStage} {state : IngestionStageState}
  {code : Option IngestionFailureCode} {kind : Option IngestionFailureKind} {detail : Option String}

/-- What remains of a stage after parsing, once its row is there. -/
theorem recordDownstreamStage_fst (h : Sound c s) (hrow : s.operation? c.operationId = some row)
    (hdetails : validDetails state code kind detail = .ok ()) :
    (recordDownstreamStage c.workspaceId c.operationId stage state code kind detail now s).1
      = ((lift (mayAdvance row stage state) >>= fun _ => downstreamWrites row stage state code kind detail now :
          Statement IngestionCheckpoint) s).1 := by
  have hworkspace := (ids_of_identity (h.identity row hrow)).1
  have hensure : (ensure (row.workspaceId = c.workspaceId)
      (checkpointError "ingestion operation does not exist") : Statement Unit) s = (.ok (), s) := by
    rw [ensure, if_pos hworkspace]
    rfl
  unfold recordDownstreamStage
  rw [rollback_fst, bind_of_same (a := ()) (by rw [lift_apply, hdetails]), read_bind, hrow]
  exact congrArg Prod.fst (bind_of_same hensure)

/-- What the keys and the constraints refuse is all that these writes raise. -/
theorem downstreamWrites_error (h : (row.advanced stage state code kind detail now).Consistent) {e : Raised}
    (herror : (downstreamWrites row stage state code kind detail now s).1 = .error e) : OffPort e := by
  refine RaisesOnly.bind (P := OffPort) ?_ (fun _ => (raisesOnly_flush _ _).bind fun _ => ?_) s e herror
  · have hdocument (status : DocumentStatus) : RaisesOnly OffPort (advancedDocument row status) := by
      refine (raisesOnly_read _).bind fun found => ?_
      cases found with
      | some document => exact raisesOnly_flush _ _
      | none => exact raisesOnly_pure ()
    have hsource : RaisesOnly OffPort (readySource row) := by
      refine (raisesOnly_read _).bind fun found => ?_
      cases found with
      | some source => exact raisesOnly_flush _ _
      | none => exact raisesOnly_pure ()
    cases stage <;> cases state
    case embed.succeeded => exact hdocument .embedded
    case index.succeeded => exact (hdocument .ready).bind fun _ => hsource
    all_goals exact raisesOnly_pure ()
  · refine raisesOnly_lift fun e' he' => ?_
    have hok : checkpoint (row.advanced stage state code kind detail now) = .ok ⟨_, h⟩ :=
      checkpoint_eq_ok.mpr rfl
    rw [hok] at he'
    cases he'

end Downstream

/-- The answers of the stages after parsing. -/
theorem clean_downstream_iff {command : SourceRetractionCommand} (h : Sound c s)
    (hretracted : IsRetracted c command s) (stage : DownstreamStage) (state : IngestionStageState)
    (code : Option IngestionFailureCode) (kind : Option IngestionFailureKind) (detail : Option String)
    (now : Datetime) :
    (∀ e, (recordDownstreamStage c.workspaceId c.operationId stage state code kind detail now s).1 = .error e →
        e.isPortError = true)
      ↔ validDetails state code kind detail = .ok ()
        ∧ (stage = .index → state = .succeeded → ∀ row ∈ s.operation? c.operationId,
            mayAdvance row stage state ≠ .ok ()) := by
  obtain ⟨row, hrow⟩ := hretracted.row h
  obtain ⟨source, hsource, hstatus, -⟩ := hretracted
  obtain ⟨hworkspace, hsourceId, -⟩ := ids_of_identity (h.identity row hrow)
  have hrows : (∀ other ∈ s.operation? c.operationId, mayAdvance other stage state ≠ .ok ())
      ↔ mayAdvance row stage state ≠ .ok () := by
    rw [hrow]
    simp only [Option.mem_def, Option.some.injEq, forall_eq']
  rw [hrows]
  cases hdetails : validDetails state code kind detail with
  | error e =>
    refine iff_of_false (fun hall => ?_) fun hboth => by cases hboth.1
    have hvalue : e.isPortError = false := by
      unfold validDetails at hdetails
      split_ifs at hdetails <;> (obtain rfl := Except.error.inj hdetails; rfl)
    refine absurd (hvalue.symm.trans (hall e ?_)) (by decide)
    unfold recordDownstreamStage
    rw [rollback_fst, bind_apply, lift_apply, hdetails]
    rfl
  | ok u =>
    cases hmay : mayAdvance row stage state with
    | error e =>
      refine iff_of_true (fun e' he' => ?_) ⟨rfl, fun _ _ => nofun⟩
      rw [recordDownstreamStage_fst h hrow hdetails, hmay, bind_apply, lift_apply, andThen_error] at he'
      obtain rfl := Except.error.inj he'
      exact mayAdvance_error hmay
    | ok v =>
      have hparse := (IngestionOperationRow.mayAdvance_eq_ok.mp hmay).1
      have hconsistent : (row.advanced stage state code kind detail now).Consistent :=
        IngestionOperationRow.consistent_advanced (h.consistent row hrow) (h.acquired row hrow hparse) hmay
          hdetails
      simp only [ne_eq, not_true_eq_false, imp_false, true_and]
      by_cases hlast : stage = .index ∧ state = .succeeded
      · refine iff_of_false (fun hall => ?_) fun hnot => hnot hlast.1 hlast.2
        cases hanswer : (recordDownstreamStage c.workspaceId c.operationId stage state code kind detail now
          s).1 with
        | error e =>
          have hoff : OffPort e := by
            rw [recordDownstreamStage_fst h hrow hdetails, hmay] at hanswer
            exact downstreamWrites_error hconsistent hanswer
          exact absurd (hoff.symm.trans (hall e hanswer)) (by decide)
        | ok k =>
          obtain ⟨-, other, hother, -, -, -, -, t, hrows, -⟩ :=
            recordDownstreamStage_eq_ok.mp (Prod.ext hanswer rfl)
          obtain rfl := Option.some.inj (hrow.symm.trans hother)
          have hmarked := (rows_downstream hrows).2.1 hlast
          rw [hsourceId] at hmarked
          exact (hmarked source hsource).2 hstatus
      · refine iff_of_true (fun e he => ?_) fun hindex hstate => hlast ⟨hindex, hstate⟩
        obtain ⟨t, ht⟩ : ∃ t, downstreamRows row stage state s = (.ok (), t) := downstreamRows_ok hlast s
        have hok : recordDownstreamStage c.workspaceId c.operationId stage state code kind detail now s
            = (.ok ⟨_, hconsistent⟩, t.withOperation (row.advanced stage state code kind detail now)) :=
          recordDownstreamStage_eq_ok.mpr ⟨hdetails, row, hrow, hworkspace, hmay,
            (IngestionOperationRow.accepted_iff _).mpr hconsistent, rfl, t, ht, rfl⟩
        rw [hok] at he
        cases he

/-- **Steps.**  Once the source is retracted, a call commits or a port raises exactly when its step is
    not one that the database refuses. -/
theorem clean_step_iff (h : Coherent c σ) {command : SourceRetractionCommand}
    (hretracted : IsRetracted c command σ.tables) (step : Step) : Clean c σ step ↔ Smooth c σ step := by
  cases step with
  | spawn bucket => exact iff_of_true (fun answer hmem => by cases hmem) trivial
  | downstream stage state code kind detail now =>
    refine Iff.trans ?_ (clean_downstream_iff h.tables.sound hretracted stage state code kind detail now)
    constructor
    · exact fun hall e he => hall _ rfl e (wrapped_fst.mpr he)
    · intro hall answer hmem e he
      obtain rfl := Option.some.inj hmem
      exact hall e (wrapped_fst.mp he)
  | advance i outside now =>
    cases hr : σ.runners[i]? with
    | none =>
      have hanswer : σ.answer c (.advance i outside now) = none := by rw [System.answer, hr]; rfl
      refine iff_of_true (fun answer hmem => ?_) fun r hmem => ?_
      · rw [hanswer] at hmem
        cases hmem
      · rw [hr] at hmem
        cases hmem
    | some r =>
      have hanswer : σ.answer c (.advance i outside now)
          = (r.phase.call c).map fun call => (perform call now σ.tables).1 := by
        rw [System.answer, hr, Option.bind_some]
      have hsmooth : Smooth c σ (.advance i outside now) ↔ r.phase.Smooth c σ.tables := by
        rw [Smooth, hr]
        exact ⟨fun hall => hall r rfl, fun h other hmem => Option.some.inj hmem ▸ h⟩
      rw [hsmooth, ← Phase.clean_iff h.tables hretracted (h.phases r (List.mem_of_getElem? hr)) now, Clean,
        hanswer]
      constructor
      · exact fun hall call hcall e he => hall _ (Option.mem_map_of_mem _ hcall) e he
      · intro hall answer hmem e he
        obtain ⟨call, hcall, rfl⟩ := Option.map_eq_some_iff.mp hmem
        exact hall call hcall e he

/-! ### A final state can always be reached -/

/-- The operation has succeeded, or has failed for good. -/
def Terminal (c : IngestSourceInput) (s : KnowledgeTables) : Prop :=
  Succeeded c s ∨ permanentFailure c s ≠ none

/-- Another attempt, which the object store refuses. -/
def lastAttempt (c : IngestSourceInput) (σ : System) (now : Datetime) : List Event :=
  let outside : Outside := { object := .portError, parse := fun _ _ => .otherError }
  [.ingest (.spawn c.objectBucket), .ingest (.advance σ.runners.length outside now),
   .ingest (.advance σ.runners.length outside now)]

theorem terminal_lastAttempt (h : Coherent c σ) (active : UUID → UUID → Bool)
    {row : IngestionOperationRow} (hrow : σ.tables.operation? c.operationId = some row)
    (hterminal : row.terminal = false) (now : Datetime) :
    Terminal c (after (System.observe c active) σ (lastAttempt c σ now)).tables := by
  have hnot : row.parseState ≠ .succeeded ∧ row.failureKind ≠ some .permanent := by
    simpa [IngestionOperationRow.terminal] using hterminal
  have hsound := h.tables.sound
  have hconsistent : (row.restarted now).Consistent :=
    IngestionOperationRow.consistent_restarted (hsound.waiting row hrow hnot.1)
  have hstart : start c now σ.tables
      = (.ok ⟨row.restarted now, hconsistent⟩, σ.tables.withOperation (row.restarted now)) :=
    start_eq_ok.mpr (.inr ⟨row, hrow, hsound.identity row hrow, hsound.consistent row hrow,
      .inr ⟨hterminal, (IngestionOperationRow.accepted_iff _).mpr hconsistent, rfl, rfl⟩⟩)
  have hparse : (row.restarted now).parseState ≠ .succeeded ∧ (row.restarted now).terminal = false := by
    unfold IngestionOperationRow.restarted
    split_ifs <;> exact ⟨fun h => by injection h, rfl⟩
  have hsound' : Sound c (σ.tables.withOperation (row.restarted now)) := by
    have hperform : perform (.start c) now σ.tables
        = (.ok (.checkpoint ⟨row.restarted now, hconsistent⟩), σ.tables.withOperation (row.restarted now)) :=
      wrapped_eq_ok.mpr ⟨_, hstart, rfl⟩
    have hcall : (StoreCall.start c).IsFor c := rfl
    exact hsound.effect (effect_of_ok hsound hcall hperform)
  have hrow' := start_row hstart
  have hspawn : (System.observe c active (.ingest (.spawn c.objectBucket)) σ).2
      = { σ with runners := σ.runners ++ [{ bucket := c.objectBucket }] } := by
    show (if isBlank c.objectBucket then σ else _ : System) = _
    rw [if_neg (by simp [c.notBlank.2.2.2])]
  -- The new runner starts again, and finds that the object is refused.
  let outside : Outside := { object := .portError, parse := fun _ _ => .otherError }
  let waiting : Runner := { bucket := c.objectBucket }
  let refused : Runner := { bucket := c.objectBucket, phase := .afterObject c .portError }
  have hlast : (σ.runners ++ [waiting])[σ.runners.length]? = some waiting := by simp
  have hfirst : (System.exec c (.advance σ.runners.length outside now)
      { σ with runners := σ.runners ++ [waiting] }).2
      = { tables := σ.tables.withOperation (row.restarted now)
          runners := (σ.runners ++ [waiting]).set σ.runners.length refused } := by
    rw [System.exec_advance hlast, Phase.next, Phase.attempt_of hstart, Phase.afterStart,
      if_neg hparse.1, if_neg (by simp [hparse.2]), if_neg (not_not.mpr rfl)]
    rfl
  have hrefused : ((σ.runners ++ [waiting]).set σ.runners.length refused)[σ.runners.length]?
      = some refused := by simp
  obtain ⟨t, hfail⟩ : ∃ t, fail c .acquire refusal none now (σ.tables.withOperation (row.restarted now))
      = (.ok (), t) :=
    (fail_ok_iff hsound' hrow' hparse.1).mpr
      ⟨fun hstage => absurd hstage (by decide), fun hstage => absurd hstage (by decide)⟩
  have hsecond : (System.exec c (.advance σ.runners.length outside now)
      { tables := σ.tables.withOperation (row.restarted now)
        runners := (σ.runners ++ [waiting]).set σ.runners.length refused }).2.tables = t := by
    rw [System.exec_advance hrefused]
    show (Phase.attempt (fail c .acquire refusal none now) _ _).2 = t
    rw [Phase.attempt_snd, hfail]
  have hfailed : permanentFailure c t = some (.acquire, .objectStoreFailure) :=
    permanentFailure_fail hrow' hparse.1 hfail
  rw [lastAttempt, after_cons, hspawn, after_cons, after_cons, after_nil]
  show Terminal c (System.exec c (.advance σ.runners.length outside now) (System.exec c
    (.advance σ.runners.length outside now) { σ with runners := σ.runners ++ [waiting] }).2).2.tables
  rw [hfirst, hsecond]
  exact .inr (by rw [hfailed]; exact Option.some_ne_none _)

/-! ### Runs -/

/-- The events whose store calls are not refused. -/
def SmoothEvent (c : IngestSourceInput) (σ : System) : Event → Prop
  | .ingest step => Smooth c σ step
  | .retract _ => True

/-- The state after some events, from tables without the operation. -/
abbrev reached (c : IngestSourceInput) (active : UUID → UUID → Bool) (s : KnowledgeTables)
    (events : List Event) : System := after (System.observe c active) { tables := s } events

/-- A coherent state whose source is retracted. -/
def Withdrawn (c : IngestSourceInput) (command : SourceRetractionCommand) (σ : System) : Prop :=
  Coherent c σ ∧ IsRetracted c command σ.tables

theorem Withdrawn.observe {command : SourceRetractionCommand} (h : Withdrawn c command σ)
    (active : UUID → UUID → Bool) (event : Event) :
    Withdrawn c command (System.observe c active event σ).2 :=
  ⟨h.1.observe active event, h.2.observe h.1 active event⟩

theorem Fresh.coherent_reached (h : Fresh c s) (active : UUID → UUID → Bool) (events : List Event) :
    Coherent c (reached c active s events) :=
  after_invariant (fun _ event hcoherent _ => hcoherent.observe active event) h.coherent
    (along_of_forall (P := fun _ _ => True) (fun _ _ => trivial) _ events)

theorem Withdrawn.after {command : SourceRetractionCommand} (h : Withdrawn c command σ)
    (active : UUID → UUID → Bool) (events : List Event) :
    Withdrawn c command (Agora.after (System.observe c active) σ events) :=
  after_invariant (fun _ event hwithdrawn _ => hwithdrawn.observe active event) h
    (along_of_forall (P := fun _ _ => True) (fun _ _ => trivial) _ events)

/-- A final state can be reached. -/
theorem Withdrawn.exists_terminal {command : SourceRetractionCommand} (h : Withdrawn c command σ)
    (active : UUID → UUID → Bool) (now : Datetime) :
    ∃ last, Terminal c (Agora.after (System.observe c active) σ last).tables := by
  obtain ⟨row, hrow⟩ := h.2.row h.1.tables.sound
  cases hterminal : row.terminal with
  | false => exact ⟨lastAttempt c σ now, terminal_lastAttempt h.1 active hrow hterminal now⟩
  | true =>
    refine ⟨[], ?_⟩
    by_cases hparse : row.parseState = .succeeded
    · exact .inl ⟨row, hrow, hparse⟩
    · refine .inr (permanentFailure_ne_none h.1.tables.sound hrow hparse ?_)
      simpa [IngestionOperationRow.terminal, hparse] using hterminal

/-- **Retraction and ingestion.**  The source of an operation is retracted in any state of its runs, and
    the runs go on.  It stays retracted, with the time and the reason; every call commits or a port
    raises exactly when no step is one that the database refuses; and a final state can still be
    reached. -/
theorem retraction_composes (hfresh : Fresh c s) (active : UUID → UUID → Bool)
    (before rest : List Event) (command : SourceRetractionCommand) (hid : command.sourceId = c.sourceId)
    (hretract : (retractSource active command (reached c active s before).tables).1 = .ok ()) :
    (∀ earlier later, rest = earlier ++ later →
        IsRetracted c command (reached c active s (before ++ .retract command :: earlier)).tables)
      ∧ ((∀ earlier step later, rest = earlier ++ .ingest step :: later →
          Clean c (reached c active s (before ++ .retract command :: earlier)) step)
        ↔ Along (System.observe c active) (SmoothEvent c)
            (reached c active s (before ++ [.retract command])) rest)
      ∧ ∀ earlier later, rest = earlier ++ later → ∃ last, Terminal c
          (reached c active s (before ++ .retract command :: (earlier ++ last))).tables := by
  have hbase : Withdrawn c command (reached c active s (before ++ [.retract command])) := by
    refine ⟨hfresh.coherent_reached active _, ?_⟩
    unfold reached
    rw [after_append, after_cons, after_nil]
    exact isRetracted_of_retractSource hid (Prod.ext hretract rfl)
  have happend (events : List Event) : reached c active s (before ++ .retract command :: events)
      = after (System.observe c active) (reached c active s (before ++ [.retract command])) events := by
    rw [reached, reached, ← after_append, List.append_assoc]
    rfl
  have hclean : Along (System.observe c active)
      (fun σ event => ∀ step, event = .ingest step → Clean c σ step)
      (reached c active s (before ++ [.retract command])) rest
        ↔ Along (System.observe c active) (SmoothEvent c)
            (reached c active s (before ++ [.retract command])) rest := by
    refine @along_congr_of_invariant System Event Unit (System.observe c active) (Withdrawn c command) _ _
      (fun _ event h => h.observe active event) (fun σ event h => ?_) _ hbase rest
    cases event with
    | retract other => exact iff_of_true (fun step heq => by cases heq) trivial
    | ingest step =>
      refine Iff.trans ?_ (clean_step_iff h.1 h.2 step)
      constructor
      · exact fun hall => hall step rfl
      · intro hstep other heq
        obtain rfl := Event.ingest.inj heq
        exact hstep
  rw [← hclean, along_iff_forall]
  refine ⟨fun earlier later _ => ?_, ⟨?_, ?_⟩, fun earlier later _ => ?_⟩
  · rw [happend]
    exact (hbase.after active earlier).2
  · rintro hall earlier event later heq step rfl
    rw [← happend]
    exact hall earlier step later heq
  · intro hall earlier step later heq
    rw [happend]
    exact hall earlier (.ingest step) later heq step rfl
  · obtain ⟨last, hlast⟩ := (hbase.after active earlier).exists_terminal active (Session.noon 0)
    refine ⟨last, ?_⟩
    rw [happend, after_append]
    exact hlast

/-! ### A source that is retracted while it is parsed -/

/-- Two runners, the second of which has recorded and parsed the object. -/
def parsing : List Event :=
  [.ingest (.spawn "artifacts"), .ingest (.spawn "artifacts"),
   .ingest (.advance 0 readable (Session.noon 0)), .ingest (.advance 1 readable (Session.noon 1)),
   .ingest (.advance 1 readable (Session.noon 2))]

def sampleRetraction : SourceRetractionCommand where
  retractionId := Session.sampleId 6
  workspaceId := Session.sampleId 2
  sourceId := Session.sampleId 4
  actorId := Session.sampleId 7
  reason := "withdrawn by the publisher"
  retractedAt := Session.noon 3
  notBlank := by decide

theorem reached_parsing (active : UUID → UUID → Bool) : reached sampleInput active {} parsing
    = { tables := acquiredTables, runners := [acquiringRunner, completingRunner] } := by
  have hfirst : (System.observe sampleInput active (.ingest (.spawn "artifacts")) ⟨{}, []⟩).2
      = ⟨{}, [startingRunner]⟩ := rfl
  have hsecond : (System.observe sampleInput active (.ingest (.spawn "artifacts")) ⟨{}, [startingRunner]⟩).2
      = ⟨{}, [startingRunner, startingRunner]⟩ := rfl
  have hstart : (System.observe sampleInput active (.ingest (.advance 0 readable (Session.noon 0)))
      ⟨{}, [startingRunner, startingRunner]⟩).2 = ⟨startedTables, [acquiringRunner, startingRunner]⟩ := by
    rw [System.observe, System.exec_advance rfl, startingRunner, Phase.next, Phase.attempt_of start_sample]
    rfl
  have hrestart : (System.observe sampleInput active (.ingest (.advance 1 readable (Session.noon 1)))
      ⟨startedTables, [acquiringRunner, startingRunner]⟩).2
      = ⟨restartedTables, [acquiringRunner, acquiringRunner]⟩ := by
    rw [System.observe, System.exec_advance rfl, startingRunner, Phase.next, Phase.attempt_of restart_sample]
    rfl
  have hacquired : (System.observe sampleInput active (.ingest (.advance 1 readable (Session.noon 2)))
      ⟨restartedTables, [acquiringRunner, acquiringRunner]⟩).2
      = ⟨acquiredTables, [acquiringRunner, completingRunner]⟩ := by
    rw [System.observe, System.exec_advance rfl, acquiringRunner, Phase.next,
      Phase.attempt_of acquired_sample]
    rfl
  rw [reached, parsing, after_cons, hfirst, after_cons, hsecond, after_cons, hstart, after_cons, hrestart,
    after_cons, hacquired, after_nil]

theorem retractSource_sample : (retractSource (fun _ _ => true) sampleRetraction acquiredTables).1 = .ok () :=
  rfl

theorem retraction_composes_parsing :
    IsRetracted sampleInput sampleRetraction (reached sampleInput (fun _ _ => true) {}
      (parsing ++ [.retract sampleRetraction, .ingest (.advance 1 readable (Session.noon 4))])).tables := by
  refine (retraction_composes sample_fresh (fun _ _ => true) parsing
    [.ingest (.advance 1 readable (Session.noon 4))] sampleRetraction rfl ?_).1 _ [] rfl
  rw [reached_parsing]
  exact retractSource_sample

/-- The runner that has parsed the object completes, and the database refuses. -/
theorem completion_refused : ¬Clean sampleInput (reached sampleInput (fun _ _ => true) {}
    (parsing ++ [.retract sampleRetraction])) (.advance 1 readable (Session.noon 4)) := by
  have hstate : (reached sampleInput (fun _ _ => true) {} (parsing ++ [.retract sampleRetraction]))
      = { tables := (retractSource (fun _ _ => true) sampleRetraction acquiredTables).2
          runners := [acquiringRunner, completingRunner] } := by
    have hparsing := reached_parsing fun _ _ => true
    unfold reached at hparsing ⊢
    rw [after_append, hparsing]
    rfl
  have hcoherent := sample_fresh.coherent_reached (fun _ _ => true) (parsing ++ [.retract sampleRetraction])
  have hretracted : IsRetracted sampleInput sampleRetraction
      (retractSource (fun _ _ => true) sampleRetraction acquiredTables).2 :=
    isRetracted_of_retractSource rfl (Prod.ext retractSource_sample rfl)
  rw [hstate] at hcoherent ⊢
  rw [clean_step_iff hcoherent hretracted]
  intro hsmooth
  obtain ⟨row, hrow, hparse⟩ := hsmooth completingRunner rfl
  obtain rfl : acquiredRow = row := Option.some.inj hrow
  cases hparse

end Agora.Ingestion
