import Agora.Ingestion.Finality

namespace Agora.Ingestion

open Stateful

/-!
# Operation and source

The row of an operation is always a checkpoint.  Its source should say the same, but a failure of
acquiring does not look for it: after an attempt that had acquired the source and could not parse it, a
permanent failure leaves it `PROCESSING`, and after a permanent failure of parsing a transient one
leaves it `FAILED`.
-/

variable {c : IngestSourceInput} {s t : KnowledgeTables} {σ : System} {now : Datetime}

/-- What a source should be, by its operation. -/
inductive ShouldBe (c : IngestSourceInput) (s : KnowledgeTables) : SourceStatus → Prop where
  | failed (hfailed : permanentFailure c s ≠ none) : ShouldBe c s .failed
  | ready (hsucceeded : Succeeded c s) : ShouldBe c s .ready
  | processing (hfailed : permanentFailure c s = none) (hsucceeded : ¬Succeeded c s) :
      ShouldBe c s .processing

/-- The stored row is a checkpoint, and the source says the same. -/
structure Agrees (c : IngestSourceInput) (s : KnowledgeTables) : Prop where
  operation : ∀ row ∈ s.operation? c.operationId, row.failureIsComplete = .ok ()
  source : ∀ source ∈ s.source? c.sourceId, ShouldBe c s source.status

theorem ShouldBe.permanentFailure_iff (h : Sound c s) {status : SourceStatus} (hstatus : ShouldBe c s status) :
    permanentFailure c s ≠ none ↔ status = .failed := by
  cases hstatus with
  | failed hfailed => exact iff_of_true hfailed rfl
  | ready hsucceeded =>
    exact iff_of_false (fun hne => not_succeeded_of_permanentFailure h hne hsucceeded) nofun
  | processing hfailed => exact iff_of_false (not_not.mpr hfailed) nofun

/-- A runner that fails leaves the source as the operation says.  Where there is a source, a permanent
    failure of acquiring needs another permanent failure before it, and a transient one needs that there
    is none, unless the database refuses it. -/
def Phase.Aligned (c : IngestSourceInput) (s : KnowledgeTables) : Phase → Prop
  | .failing stage failure _ _ => ¬Succeeded c s → s.source? c.sourceId ≠ none →
    match failure.kind with
    | .permanent => stage = .acquire → permanentFailure c s ≠ none
    | .transient => ∀ f ∈ permanentFailure c s, stage = .parse ∧ f.1 = .acquire
  | _ => True

def Aligned (c : IngestSourceInput) (σ : System) (step : Step) : Prop :=
  ∀ phase ∈ σ.phaseOf step, phase.Aligned c σ.tables

/-! ### Calls -/

theorem Sound.complete_row (h : Sound c s) :
    ∀ row ∈ s.operation? c.operationId, row.failureIsComplete = .ok () :=
  fun row hrow => row.failureIsComplete_eq_ok.mpr (h.consistent row hrow)

/-- No failure is recorded for good before a call that looks for one. -/
theorem permanentFailure_eq_none {row : IngestionOperationRow}
    (hrow : s.operation? c.operationId = some row) (hkind : row.failureKind ≠ some .permanent) :
    permanentFailure c s = none :=
  (permanentFailure_of_row hrow).trans (IngestionOperationRow.permanentFailure_of_kind hkind)

/-- A source that waits for its operation is being processed. -/
theorem processing_of_row {row : IngestionOperationRow} (hrow : s.operation? c.operationId = some row)
    (hparse : row.parseState ≠ .succeeded) (hkind : row.failureKind ≠ some .permanent)
    {status : SourceStatus} : ShouldBe c s status ↔ status = .processing := by
  have hfailed := permanentFailure_eq_none hrow hkind
  have hsucceeded : ¬Succeeded c s := mt (succeeded_iff hrow).mp hparse
  constructor
  · intro h
    cases h with
    | failed h => exact absurd hfailed h
    | ready h => exact absurd h hsucceeded
    | processing => rfl
  · rintro rfl
    exact .processing hfailed hsucceeded

/-- The call records a failure of an attempt. -/
def StoreCall.Fails : StoreCall → Prop
  | .fail _ _ _ _ => True
  | _ => False

/-- The other calls leave the two in agreement. -/
theorem Agrees.effect (h : Agrees c s) (hsound : Sound c s) {call : StoreCall} (heffect : Effect c s call t)
    (hcall : ¬call.Fails) : Agrees c t := by
  refine ⟨(hsound.effect heffect).complete_row, ?_⟩
  cases heffect with
  | unchanged => exact h.source
  | started now hnone =>
    intro source hsource
    rw [KnowledgeTables.source?_withOperation, hsound.missing hnone] at hsource
    cases hsource
  | restarted now hrow hterminal =>
    rename_i row
    have hnot : row.parseState ≠ .succeeded ∧ row.failureKind ≠ some .permanent := by
      simpa [IngestionOperationRow.terminal] using hterminal
    have hid : (row.restarted now).id = c.operationId :=
      IngestionOperationRow.restarted_facts.1.trans (KnowledgeTables.operation?_id hrow)
    have hfields : (row.restarted now).parseState ≠ .succeeded
        ∧ (row.restarted now).failureKind ≠ some .permanent := by
      unfold IngestionOperationRow.restarted
      split_ifs <;> exact ⟨fun h => by injection h, fun h => by injection h⟩
    intro source hsource
    refine (processing_of_row (operation?_stored hid) hfields.1 hfields.2).mpr ?_
    exact (processing_of_row hrow hnot.1 hnot.2).mp (h.source source hsource)
  | acquired now hrow hparse hkind hsource =>
    rename_i row objectRef u
    have hid : row.id = c.operationId := KnowledgeTables.operation?_id hrow
    have hrow' : (u.withOperation (row.acquired objectRef now)).operation? c.operationId
        = some (row.acquired objectRef now) := operation?_stored hid
    intro source hmem
    refine (processing_of_row hrow' (fun h => by injection h) fun h => by injection h).mpr ?_
    rw [KnowledgeTables.source?_withOperation, (source?_acquired hsource).1] at hmem
    obtain rfl := Option.some.inj hmem
    cases hstored : s.source? c.sourceId with
    | none => rfl
    | some stored => exact (processing_of_row hrow hparse hkind).mp (h.source stored hstored)
  | completed now hrow hparse hobject hdocument hsource htakes hstatus =>
    rename_i row source objectRef document chunks warnings
    have hid : row.id = c.operationId := KnowledgeTables.operation?_id hrow
    have hrow' : (s.completedWith document chunks source (row.completed warnings now)).operation?
        c.operationId = some (row.completed warnings now) := operation?_stored hid
    have hkept : ((s.withDocument document).withChunks chunks).source? c.sourceId = some source := hsource
    intro other hmem
    obtain rfl := Option.some.inj ((source?_withStatus hkept .ready).symm.trans hmem)
    exact .ready ⟨_, hrow', rfl⟩
  | failed => exact absurd trivial hcall
  | advanced now hrow hmay hdetails hrows =>
    rename_i row stage state code kind detail u
    obtain ⟨-, hsourceId, -⟩ := ids_of_identity (hsound.identity row hrow)
    have hparse := (IngestionOperationRow.mayAdvance_eq_ok.mp hmay).1
    have hparse' : (row.advanced stage state code kind detail now).parseState = .succeeded := by
      cases stage <;> exact hparse
    have hid : (row.advanced stage state code kind detail now).id = c.operationId :=
      IngestionOperationRow.advanced_facts.1.trans (KnowledgeTables.operation?_id hrow)
    have hsucceeded : Succeeded c (u.withOperation (row.advanced stage state code kind detail now)) :=
      ⟨_, operation?_stored hid, hparse'⟩
    have hnew := (rows_downstream hrows).1
    rw [hsourceId] at hnew
    intro source hmem
    rw [KnowledgeTables.source?_withOperation, hnew] at hmem
    obtain ⟨stored, hstored, rfl⟩ := Option.map_eq_some_iff.mp hmem
    have hready : stored.status = .ready := by
      have hdone : Succeeded c s := ⟨row, hrow, hparse⟩
      have hstatus := h.source stored hstored
      generalize stored.status = status at hstatus
      cases hstatus with
      | failed hfailed => exact absurd hdone (not_succeeded_of_permanentFailure hsound hfailed)
      | ready => rfl
      | processing _ hnot => exact absurd hdone hnot
    split_ifs
    · exact .ready hsucceeded
    · rw [hready]
      exact .ready hsucceeded

/-- A failure leaves them in agreement exactly when it meets its condition. -/
theorem agrees_fail_iff (h : Agrees c s) (hsound : Sound c s) {row : IngestionOperationRow}
    (hrow : s.operation? c.operationId = some row) (hparse : row.parseState ≠ .succeeded)
    {stage : AttemptStage} {failure : Failure} {objectRef : Option String}
    (hfail : fail c stage failure objectRef now s = (.ok (), t)) :
    Agrees c t ↔ (s.source? c.sourceId ≠ none → match failure.kind with
      | .permanent => stage = .acquire → permanentFailure c s ≠ none
      | .transient => permanentFailure c s = none) := by
  have hsoundAfter : Sound c t := by
    have hcall : (StoreCall.fail c stage failure objectRef).IsFor c := rfl
    have hperform : perform (.fail c stage failure objectRef) now s = (.ok .done, t) :=
      wrapped_eq_ok.mpr ⟨(), hfail, rfl⟩
    exact hsound.effect (effect_of_ok hsound hcall hperform)
  have hfailure := permanentFailure_fail hrow hparse hfail
  obtain ⟨other, hother, -, ⟨hdone, -⟩ | ⟨-, -, u, hsource, rfl⟩⟩ := fail_eq_ok.mp hfail
  · obtain rfl := Option.some.inj (hrow.symm.trans hother)
    exact absurd hdone hparse
  · obtain rfl := Option.some.inj (hrow.symm.trans hother)
    have hnot : ¬Succeeded c (u.withOperation (row.failedIn stage failure objectRef now)) := by
      have hid : (row.failedIn stage failure objectRef now).id = c.operationId :=
        IngestionOperationRow.failedIn_facts.1.trans (KnowledgeTables.operation?_id hrow)
      refine mt (succeeded_iff (operation?_stored hid)).mp ?_
      cases stage <;> exact nofun
    have hnew := (source?_failed hsource).1
    cases hstored : s.source? c.sourceId with
    | none =>
      refine iff_of_true ⟨hsoundAfter.complete_row, fun source hmem => ?_⟩ fun hne => absurd rfl hne
      rw [KnowledgeTables.source?_withOperation, hnew, hstored] at hmem
      cases hmem
    | some source =>
      rw [hstored, Option.map_some] at hnew
      have hagrees : Agrees c (u.withOperation (row.failedIn stage failure objectRef now))
          ↔ ShouldBe c (u.withOperation (row.failedIn stage failure objectRef now))
            (if stage = .parse ∧ failure.kind = .permanent then source.withStatus .failed else source).status := by
        constructor
        · intro hagrees
          exact hagrees.source _ hnew
        · intro hshould
          refine ⟨hsoundAfter.complete_row, fun other hmem => ?_⟩
          obtain rfl := Option.some.inj (hnew.symm.trans hmem)
          exact hshould
      have hstatus := h.source source hstored
      have hbefore : permanentFailure c s ≠ none ↔ source.status = .failed :=
        hstatus.permanentFailure_iff hsound
      rw [hagrees, forall_prop_of_true (Option.some_ne_none source)]
      cases hkind : failure.kind with
      | permanent =>
        rw [if_pos hkind] at hfailure
        have hne : permanentFailure c (u.withOperation (row.failedIn stage failure objectRef now)) ≠ none := by
          rw [hfailure]
          exact Option.some_ne_none _
        have hshould (status : SourceStatus) :
            ShouldBe c (u.withOperation (row.failedIn stage failure objectRef now)) status
              ↔ status = .failed := by
          refine ⟨fun hs => (hs.permanentFailure_iff hsoundAfter).mp hne, ?_⟩
          rintro rfl
          exact .failed hne
        rw [hshould]
        cases stage with
        | acquire => simpa using hbefore.symm
        | parse => simp
      | transient =>
        rw [if_neg (by simp [hkind])] at hfailure
        have hshould (status : SourceStatus) :
            ShouldBe c (u.withOperation (row.failedIn stage failure objectRef now)) status
              ↔ status = .processing := by
          constructor
          · intro hs
            cases hs with
            | failed hne => exact absurd hfailure hne
            | ready hdone => exact absurd hdone hnot
            | processing => rfl
          · rintro rfl
            exact .processing hfailure hnot
        rw [hshould, if_neg (by simp)]
        constructor
        · intro hprocessing
          by_contra hne
          rw [hbefore.mp hne] at hprocessing
          cases hprocessing
        · intro hnone
          generalize source.status = status at hstatus
          cases hstatus with
          | failed hne => exact absurd hnone hne
          | ready hdone => exact absurd ((succeeded_iff hrow).mp hdone) hparse
          | processing => rfl

/-! ### Steps and runs -/

/-- A phase leaves them in agreement exactly when it meets its condition. -/
theorem Phase.agrees_iff (h : Agrees c s) (hmatching : Matching c s) (hu : Unretracted c s) {phase : Phase}
    (hfits : phase.Fits c s) (bucket : String) (outside : Outside) (now : Datetime) :
    Agrees c (phase.next c bucket outside now s).2 ↔ phase.Aligned c s := by
  have hsound := hmatching.sound
  rw [Phase.next_snd]
  have hother {call : StoreCall} (hcall : phase.call c = some call) (hnot : ¬call.Fails) :
      Agrees c ((phase.call c).elim s fun call => (perform call now s).2) := by
    rw [hcall]
    exact h.effect hsound (perform_effect hsound (Phase.call_isFor hcall) now) hnot
  cases phase with
  | ended outcome => exact iff_of_true h trivial
  | starting => exact iff_of_true (hother rfl id) trivial
  | reading => exact iff_of_true (hother rfl id) trivial
  | acquiring body => exact iff_of_true (hother rfl id) trivial
  | completing document chunks warnings => exact iff_of_true (hother rfl id) trivial
  | failing stage failure objectRef raised =>
    obtain ⟨row, hrow⟩ := Option.ne_none_iff_exists'.mp hfits.1
    show Agrees c (perform (.fail c stage failure objectRef) now s).2 ↔ _
    by_cases hparse : row.parseState = .succeeded
    · have hfail : fail c stage failure objectRef now s = (.ok (), s) :=
        fail_eq_ok.mpr ⟨row, hrow, hsound.identity row hrow, .inl ⟨hparse, rfl⟩⟩
      have hperform : perform (.fail c stage failure objectRef) now s = (.ok .done, s) :=
        wrapped_eq_ok.mpr ⟨(), hfail, rfl⟩
      rw [hperform]
      exact iff_of_true h fun hnot => absurd ((succeeded_iff hrow).mpr hparse) hnot
    · have hnot : ¬Succeeded c s := mt (succeeded_iff hrow).mp hparse
      have hacquire : ∀ f ∈ permanentFailure c s, f.1 = .acquire ↔ row.acquireState = .failed := by
        intro f hf
        obtain ⟨other, hother, -, -, -, hiff⟩ := of_permanentFailure hsound hf
        obtain rfl := Option.some.inj (hrow.symm.trans hother)
        exact hiff
      have hiff : (∃ t, fail c stage failure objectRef now s = (.ok (), t))
          ↔ (stage = .parse → row.acquireState ≠ .failed)
            ∧ (stage = .parse → failure.kind = .permanent →
                ∀ source ∈ s.source? c.sourceId, source.status ≠ .retracted) :=
        fail_ok_iff hsound hrow hparse
      by_cases hok : ∃ t, fail c stage failure objectRef now s = (.ok (), t)
      · have hstage := (hiff.mp hok).1
        obtain ⟨t, hfail⟩ := hok
        have hperform : perform (.fail c stage failure objectRef) now s = (.ok .done, t) :=
          wrapped_eq_ok.mpr ⟨(), hfail, rfl⟩
        rw [hperform, Aligned, forall_prop_of_true hnot]
        refine (agrees_fail_iff h hsound hrow hparse hfail).trans (forall_congr' fun _ => ?_)
        cases failure.kind with
        | permanent => rfl
        | transient =>
          -- What is recorded is not refused, so there is nothing to overwrite.
          constructor
          · intro hnone f hf
            rw [hnone] at hf
            cases hf
          · intro hall
            by_contra hne
            obtain ⟨f, hf⟩ := Option.ne_none_iff_exists'.mp hne
            obtain ⟨hparsing, hfirst⟩ := hall f hf
            exact hstage hparsing ((hacquire f hf).mp hfirst)
      · have hperform : (perform (.fail c stage failure objectRef) now s).2 = s := by
          cases hanswer : (perform (.fail c stage failure objectRef) now s).1 with
          | error e => exact perform_error hanswer
          | ok a =>
            obtain ⟨⟨⟩, ht, -⟩ := wrapped_eq_ok.mp (Prod.ext hanswer rfl)
            exact absurd ⟨_, ht⟩ hok
        have hrefused : stage = .parse ∧ row.acquireState = .failed := by
          by_contra hnot'
          refine hok (hiff.mpr ⟨fun hparsing hfailed => ?_, fun _ _ => hu⟩)
          exact hnot' ⟨hparsing, hfailed⟩
        rw [hperform]
        refine iff_of_true h fun _ _ => ?_
        cases failure.kind with
        | permanent =>
          intro hstage
          rw [hrefused.1] at hstage
          cases hstage
        | transient => exact fun f hf => ⟨hrefused.1, (hacquire f hf).mpr hrefused.2⟩

/-- **Steps.**  A step leaves operation and source in agreement exactly when it meets its condition. -/
theorem agrees_step_iff (h : Running c σ) (hagrees : Agrees c σ.tables) (step : Step) :
    Agrees c (System.exec c step σ).2.tables ↔ Aligned c σ step := by
  cases step with
  | spawn bucket =>
    refine iff_of_true ?_ fun phase hphase => by cases hphase
    show Agrees c (if isBlank bucket then σ else _ : System).tables
    split_ifs <;> exact hagrees
  | downstream stage state code kind detail now =>
    refine iff_of_true ?_ fun phase hphase => by cases hphase
    rcases System.effect_exec h.1.tables.sound (.downstream stage state code kind detail now) with
      hsame | ⟨call, hcall, heffect⟩
    · rw [hsame]
      exact hagrees
    · obtain rfl := Option.some.inj hcall
      exact hagrees.effect h.1.tables.sound heffect id
  | advance i outside now =>
    cases hr : σ.runners[i]? with
    | none =>
      rw [System.exec_advance_none hr]
      exact iff_of_true hagrees fun phase hphase => by simp [System.phaseOf, hr] at hphase
    | some r =>
      have hphase : σ.phaseOf (.advance i outside now) = some r.phase := by simp [System.phaseOf, hr]
      rw [System.exec_advance hr, Aligned, hphase]
      simp only [Option.mem_def, Option.some.injEq, forall_eq']
      exact Phase.agrees_iff hagrees h.1.tables h.2 (System.phase_fits h.1 hphase) r.bucket outside now

theorem Fresh.agrees (h : Fresh c s) : Agrees c s where
  operation row hrow := by rw [h.operation] at hrow; cases hrow
  source source hsource := by rw [h.source] at hsource; cases hsource

/-- **Agreement.**  In every state between the calls of any runs of the operation, its row is a checkpoint
    and its source says the same, exactly when every step of the runs meets the condition. -/
theorem agrees_iff_aligned (hfresh : Fresh c s) (steps : List Step) :
    (∀ earlier later, steps = earlier ++ later → Agrees c (stateAfter c s earlier).tables)
      ↔ Along (System.exec c) (Aligned c) { tables := s } steps :=
  @forall_prefix_iff_along System Step Unit (System.exec c) (Running c) (fun σ => Agrees c σ.tables)
    (fun _ _ => True) (Aligned c) (fun _ step h _ => h.exec step)
    (fun _ step h _ hagrees => agrees_step_iff h hagrees step) { tables := s } hfresh.running hfresh.agrees
    steps (along_of_forall (fun _ _ => trivial) _ steps)

theorem agrees_iff_aligned_overtaken :
    (∀ earlier later, overtaken = earlier ++ later →
        Agrees sampleInput (stateAfter sampleInput {} earlier).tables)
      ↔ Along (System.exec sampleInput) (Aligned sampleInput) { tables := {} } overtaken :=
  agrees_iff_aligned sample_fresh overtaken

/-- A source that has been acquired is still being processed after acquiring has failed for good. -/
theorem processing_after_failure : ¬Agrees sampleInput (stateAfter sampleInput {} overtaken).tables := by
  rw [after_overtaken]
  intro h
  have hshould := h.source (sampleInput.newSource sampleInput.objectReference) rfl
  have hsound := (sample_fresh.running_after overtaken).1.tables.sound
  rw [after_overtaken] at hsound
  have hfailed : permanentFailure sampleInput failedTables = some (.acquire, .objectStoreFailure) := rfl
  have hstatus := (hshould.permanentFailure_iff hsound).mp (by rw [hfailed]; exact Option.some_ne_none _)
  cases hstatus

end Agora.Ingestion
