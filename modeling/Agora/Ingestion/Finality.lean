import Agora.Ingestion.Progress
import Agora.Lib.Runs
import Agora.Session.Finality

namespace Agora.Ingestion

open Stateful

/-!
# Final outcomes

Parsing that has succeeded stays so, with its document and its chunks.  A permanent failure does not
stay: `acquired` and `start` look for it, but `complete` and `fail` do not, and a runner that is slow
writes over it.  `final_step_iff` says in which steps that happens, and `outcome_final` what follows for
every run.
-/

variable {c : IngestSourceInput} {s t : KnowledgeTables} {σ : System} {now : Datetime}

/-! ### Permanent failures -/

/-- The permanent failure of an attempt: its stage and its code. -/
def IngestionOperationRow.permanentFailure (row : IngestionOperationRow) :
    Option (IngestionStage × IngestionFailureCode) :=
  match row.failureKind, row.failureStage, row.failureCode with
  | some .permanent, some .acquire, some code => some (.acquire, code)
  | some .permanent, some .parse, some code => some (.parse, code)
  | _, _, _ => none

def permanentFailure (c : IngestSourceInput) (s : KnowledgeTables) :
    Option (IngestionStage × IngestionFailureCode) :=
  (s.operation? c.operationId).bind (·.permanentFailure)

theorem permanentFailure_of_row {row : IngestionOperationRow}
    (hrow : s.operation? c.operationId = some row) : permanentFailure c s = row.permanentFailure := by
  rw [permanentFailure, hrow, Option.bind_some]

theorem IngestionOperationRow.permanentFailure_eq_some {row : IngestionOperationRow}
    {f : IngestionStage × IngestionFailureCode} : row.permanentFailure = some f
      ↔ row.failureKind = some .permanent ∧ row.failureStage = some f.1 ∧ row.failureCode = some f.2
        ∧ (f.1 = .acquire ∨ f.1 = .parse) := by
  obtain ⟨stage, code⟩ := f
  unfold permanentFailure
  constructor
  · intro h
    split at h
    · rename_i hkind hstage hcode
      obtain ⟨rfl, rfl⟩ := Prod.mk.inj (Option.some.inj h)
      exact ⟨hkind, hstage, hcode, .inl rfl⟩
    · rename_i hkind hstage hcode
      obtain ⟨rfl, rfl⟩ := Prod.mk.inj (Option.some.inj h)
      exact ⟨hkind, hstage, hcode, .inr rfl⟩
    · cases h
  · rintro ⟨hkind, hstage, hcode, rfl | rfl⟩
    · rw [hkind, hstage, hcode]
    · rw [hkind, hstage, hcode]

theorem IngestionOperationRow.permanentFailure_of_kind {row : IngestionOperationRow}
    (h : row.failureKind ≠ some .permanent) : row.permanentFailure = none := by
  unfold permanentFailure
  split
  · contradiction
  · contradiction
  · rfl

/-- A row that has not been parsed has failed for good when its failure is permanent. -/
theorem permanentFailure_ne_none (h : Sound c s) {row : IngestionOperationRow}
    (hrow : s.operation? c.operationId = some row) (hparse : row.parseState ≠ .succeeded)
    (hkind : row.failureKind = some .permanent) : permanentFailure c s ≠ none := by
  have hconsistent := h.consistent row hrow
  have hwaiting := h.waiting row hrow hparse
  obtain ⟨stage, hstage⟩ : ∃ stage, row.failureStage = some stage := by
    rw [← Option.isSome_iff_exists, ← hconsistent.kind, hkind]
    rfl
  obtain ⟨code, hcode⟩ : ∃ code, row.failureCode = some code := by
    rw [← Option.isSome_iff_exists, hconsistent.code, hstage]
    rfl
  have hfailed : row.stateOf stage = .failed := by
    have hmem : stage ∈ row.failedStages := by
      rw [hconsistent.stages, hstage]
      exact List.mem_singleton_self stage
    simpa using (List.mem_filter.mp hmem).2
  have hearly : stage = .acquire ∨ stage = .parse := by
    cases stage with
    | acquire => exact .inl rfl
    | parse => exact .inr rfl
    | embed => exact absurd (hwaiting.1.symm.trans hfailed) (by decide)
    | index => exact absurd (hwaiting.2.symm.trans hfailed) (by decide)
  have hfailure : row.permanentFailure = some (stage, code) :=
    IngestionOperationRow.permanentFailure_eq_some.mpr ⟨hkind, hstage, hcode, hearly⟩
  rw [permanentFailure_of_row hrow, hfailure]
  exact Option.some_ne_none (stage, code)

/-- The stage of the failure has failed, and so parsing has not succeeded. -/
theorem of_permanentFailure (h : Sound c s) {f : IngestionStage × IngestionFailureCode}
    (hf : permanentFailure c s = some f) : ∃ row, s.operation? c.operationId = some row
      ∧ row.failureKind = some .permanent ∧ row.parseState ≠ .succeeded ∧ row.terminal = true
      ∧ (f.1 = .acquire ↔ row.acquireState = .failed) := by
  obtain ⟨row, hrow, hfailure⟩ := Option.bind_eq_some_iff.mp hf
  obtain ⟨hkind, hstage, -, hearly⟩ := IngestionOperationRow.permanentFailure_eq_some.mp hfailure
  have hconsistent := h.consistent row hrow
  have honly : row.failedStages = [f.1] := by
    rw [hconsistent.stages, hstage]
    rfl
  have hfailed : row.stateOf f.1 = .failed := by
    have hmem : f.1 ∈ row.failedStages := by
      rw [honly]
      exact List.mem_singleton_self f.1
    simpa using (List.mem_filter.mp hmem).2
  have hiff : f.1 = .acquire ↔ row.acquireState = .failed := by
    constructor
    · intro hacquire
      rw [hacquire] at hfailed
      exact hfailed
    · intro hacquire
      have hrecorded : row.failureStage = some .acquire := hconsistent.failureStage hacquire
      exact Option.some.inj (hstage.symm.trans hrecorded)
  refine ⟨row, hrow, hkind, fun hparse => ?_, by simp [IngestionOperationRow.terminal, hkind], hiff⟩
  rcases hearly with hacquire | hstageParse
  · exact absurd ((h.acquired row hrow hparse).symm.trans (hiff.mp hacquire)) (by decide)
  · rw [hstageParse] at hfailed
    exact absurd (hparse.symm.trans hfailed) (by decide)

theorem not_succeeded_of_permanentFailure (h : Sound c s) (hf : permanentFailure c s ≠ none) :
    ¬Succeeded c s := by
  obtain ⟨f, hf⟩ := Option.ne_none_iff_exists'.mp hf
  obtain ⟨row, hrow, -, hparse, -, -⟩ := of_permanentFailure h hf
  exact mt (succeeded_iff hrow).mp hparse

/-! ### The source is not retracted -/

/-- No one has retracted the source of the operation. -/
def Unretracted (c : IngestSourceInput) (s : KnowledgeTables) : Prop :=
  ∀ source ∈ s.source? c.sourceId, source.status ≠ .retracted

theorem Unretracted.effect (hu : Unretracted c s) (h : Sound c s) {call : StoreCall}
    (heffect : Effect c s call t) : Unretracted c t := by
  cases heffect with
  | unchanged => exact hu
  | started => exact hu
  | restarted => exact hu
  | acquired now hrow hparse hkind hsource =>
    intro source hmem
    rw [KnowledgeTables.source?_withOperation, (source?_acquired hsource).1] at hmem
    obtain rfl := Option.some.inj hmem
    cases hstored : s.source? c.sourceId with
    | none => exact fun hstatus => by cases hstatus
    | some stored => exact hu stored hstored
  | completed now hrow hparse hobject hdocument hsource htakes hstatus =>
    rename_i row source objectRef document chunks warnings
    intro other hmem
    have hkept : ((s.withDocument document).withChunks chunks).source? c.sourceId = some source := hsource
    obtain rfl := Option.some.inj ((source?_withStatus hkept .ready).symm.trans hmem)
    exact fun hretracted => by cases hretracted
  | failed now hrow hparse hstage hsource =>
    intro source hmem
    rw [KnowledgeTables.source?_withOperation, (source?_failed hsource).1] at hmem
    obtain ⟨stored, hstored, rfl⟩ := Option.map_eq_some_iff.mp hmem
    split_ifs
    · exact fun hretracted => by cases hretracted
    · exact hu stored hstored
  | advanced now hrow hmay hdetails hrows =>
    rename_i row stage state code kind detail u
    obtain ⟨-, hsourceId, -⟩ := ids_of_identity (h.identity row hrow)
    have hnew := (rows_downstream hrows).1
    rw [hsourceId] at hnew
    intro source hmem
    rw [KnowledgeTables.source?_withOperation, hnew] at hmem
    obtain ⟨stored, hstored, rfl⟩ := Option.map_eq_some_iff.mp hmem
    split_ifs
    · exact fun hretracted => by cases hretracted
    · exact hu stored hstored

/-! ### What must not change -/

/-- Between two states: what has been parsed is the same, whatever the status of the document, and so is
    a permanent failure, and no success comes after it. -/
def Final (c : IngestSourceInput) (s t : KnowledgeTables) : Prop :=
  (Succeeded c s → Succeeded c t
    ∧ (t.document? c.documentId).map DocumentRow.content = (s.document? c.documentId).map DocumentRow.content
    ∧ t.chunksOf = s.chunksOf)
  ∧ ∀ f ∈ permanentFailure c s, permanentFailure c t = some f ∧ ¬Succeeded c t

/-- A runner does not write over a permanent failure.  It may record the same again; and the database
    refuses a failure of parsing after one of acquiring, and a document whose keys are taken. -/
def Phase.Keeps (c : IngestSourceInput) (s : KnowledgeTables) : Phase → Prop
  | .completing document chunks _ =>
    permanentFailure c s ≠ none → s.takesDocument document chunks = false
  | .failing stage failure _ _ => ∀ f ∈ permanentFailure c s,
    (stage = .parse ∧ f.1 = .acquire) ∨ (f = (stage.stage, failure.code) ∧ failure.kind = .permanent)
  | _ => True

/-- A runner does not fail for good after another one has succeeded. -/
def Phase.Prompt (c : IngestSourceInput) (s : KnowledgeTables) : Phase → Prop
  | .failing _ failure _ _ => failure.kind = .permanent → ¬Succeeded c s
  | _ => True

def Keeps (c : IngestSourceInput) (σ : System) (step : Step) : Prop :=
  ∀ phase ∈ σ.phaseOf step, phase.Keeps c σ.tables

def Prompt (c : IngestSourceInput) (σ : System) (step : Step) : Prop :=
  ∀ phase ∈ σ.phaseOf step, phase.Prompt c σ.tables

/-- Callers have not been told both that the ingestion has succeeded and that it has failed for good. -/
def OneOutcome (σ : System) : Prop :=
  ¬((∃ r, σ.Reported (.ok r)) ∧ ∃ e, e.isPermanent = true ∧ σ.Reported (.error e))

/-! ### Steps -/

/-- The call records an outcome. -/
def StoreCall.Decides : StoreCall → Prop
  | .complete _ _ _ _ _ | .fail _ _ _ _ => True
  | _ => False

/-- After a permanent failure only the calls that record an outcome do anything. -/
theorem Effect.unchanged_of_permanent (h : Sound c s) (hf : permanentFailure c s ≠ none) {call : StoreCall}
    (heffect : Effect c s call t) (hcall : ¬call.Decides) : t = s := by
  obtain ⟨f, hf⟩ := Option.ne_none_iff_exists'.mp hf
  obtain ⟨row, hrow, hkind, hparse, hterminal, -⟩ := of_permanentFailure h hf
  have hsame {other : IngestionOperationRow} (hother : s.operation? c.operationId = some other) :
      row = other := Option.some.inj (hrow.symm.trans hother)
  cases heffect with
  | unchanged => rfl
  | started now hnone =>
    rw [hnone] at hrow
    cases hrow
  | restarted now hother hnot =>
    obtain rfl := hsame hother
    exact absurd (hterminal.symm.trans hnot) (by decide)
  | acquired now hother _ hnot =>
    obtain rfl := hsame hother
    exact absurd hkind hnot
  | completed => exact absurd trivial hcall
  | failed => exact absurd trivial hcall
  | advanced now hother hmay =>
    obtain rfl := hsame hother
    exact absurd (IngestionOperationRow.mayAdvance_eq_ok.mp hmay).1 hparse

theorem IngestionOperationRow.permanentFailure_failedIn (row : IngestionOperationRow) (stage : AttemptStage)
    (failure : Failure) (objectRef : Option String) :
    (row.failedIn stage failure objectRef now).permanentFailure
      = if failure.kind = .permanent then some (stage.stage, failure.code) else none := by
  have hkind : (row.failedIn stage failure objectRef now).failureKind = some failure.kind := by
    cases stage <;> rfl
  split_ifs with hpermanent
  · rw [hpermanent] at hkind
    apply IngestionOperationRow.permanentFailure_eq_some.mpr
    cases stage with
    | acquire => exact ⟨hkind, rfl, rfl, .inl rfl⟩
    | parse => exact ⟨hkind, rfl, rfl, .inr rfl⟩
  · apply IngestionOperationRow.permanentFailure_of_kind
    rw [hkind]
    exact fun heq => hpermanent (Option.some.inj heq)

/-- The failure that is recorded afterwards. -/
theorem permanentFailure_fail {row : IngestionOperationRow} (hrow : s.operation? c.operationId = some row)
    (hparse : row.parseState ≠ .succeeded) {stage : AttemptStage} {failure : Failure}
    {objectRef : Option String} (h : fail c stage failure objectRef now s = (.ok (), t)) :
    permanentFailure c t = if failure.kind = .permanent then some (stage.stage, failure.code) else none := by
  obtain ⟨other, hother, -, ⟨hdone, -⟩ | ⟨-, -, u, -, rfl⟩⟩ := fail_eq_ok.mp h
  · obtain rfl := Option.some.inj (hrow.symm.trans hother)
    exact absurd hdone hparse
  · obtain rfl := Option.some.inj (hrow.symm.trans hother)
    have hid : (row.failedIn stage failure objectRef now).id = c.operationId :=
      IngestionOperationRow.failedIn_facts.1.trans (KnowledgeTables.operation?_id hrow)
    rw [permanentFailure_of_row (operation?_stored hid), IngestionOperationRow.permanentFailure_failedIn]

/-- Parsing has succeeded after it has been completed, and no failure is recorded. -/
theorem of_complete (h : Sound c s) {objectRef : String} {document : DocumentRow}
    {chunks : List KnowledgeChunkRow} {warnings : List String} {r : IngestSourceResult}
    (hcomplete : complete c objectRef document chunks warnings now s = (.ok r, t)) :
    Succeeded c t ∧ permanentFailure c t = none := by
  have hnone {u : KnowledgeTables} (hsound : Sound c u) (hsucceeded : Succeeded c u) :
      permanentFailure c u = none := by
    by_contra hne
    exact not_succeeded_of_permanentFailure hsound hne hsucceeded
  obtain ⟨row, hrow, -, ⟨hparse, hresult⟩ | ⟨-, -, -, source, -, -, -, -, hresult⟩⟩ :=
    complete_eq_ok.mp hcomplete
  · obtain ⟨-, rfl⟩ := Prod.mk.inj hresult
    have hsucceeded : Succeeded c s := ⟨row, hrow, hparse⟩
    exact ⟨hsucceeded, hnone h hsucceeded⟩
  · obtain ⟨-, rfl⟩ := Prod.mk.inj hresult
    have hid : row.id = c.operationId := KnowledgeTables.operation?_id hrow
    have hrow' : (s.completedWith document chunks source (row.completed warnings now)).operation?
        c.operationId = some (row.completed warnings now) := operation?_stored hid
    refine ⟨⟨_, hrow', rfl⟩, (permanentFailure_of_row hrow').trans ?_⟩
    exact IngestionOperationRow.permanentFailure_of_kind nofun

/-- A phase keeps a permanent failure exactly when it meets its condition. -/
theorem Phase.keeps_iff (h : Matching c s) (hu : Unretracted c s) {phase : Phase} (hfits : phase.Fits c s)
    (bucket : String) (outside : Outside) (now : Datetime) :
    (∀ f ∈ permanentFailure c s, permanentFailure c (phase.next c bucket outside now s).2 = some f)
      ↔ phase.Keeps c s := by
  rw [Phase.next_snd]
  cases hf : permanentFailure c s with
  | none =>
    refine ⟨fun _ => ?_, fun _ f hmem => absurd hmem (Option.not_mem_none f)⟩
    cases phase with
    | completing => exact fun hne => absurd hf hne
    | failing =>
      intro f hmem
      rw [hf] at hmem
      exact absurd hmem (Option.not_mem_none f)
    | starting | reading | acquiring | ended => trivial
  | some f =>
    obtain ⟨row, hrow, -, hparse, -, hacquire⟩ := of_permanentFailure h.sound hf
    have hne : permanentFailure c s ≠ none := by simp [hf]
    -- What raises leaves the failure, and so do the calls that look for it.
    have hsame {call : StoreCall} (hcall : phase.call c = some call)
        (h : (perform call now s).2 = s) :
        ∀ g ∈ some f, permanentFailure c ((phase.call c).elim s fun call => (perform call now s).2) = some g := by
      intro g hg
      rw [hcall, Option.elim_some, h, hf]
      exact hg
    have hcareful {call : StoreCall} (hcall : phase.call c = some call) (hnot : ¬call.Decides) :
        ∀ g ∈ some f, permanentFailure c ((phase.call c).elim s fun call => (perform call now s).2) = some g :=
      hsame hcall (Effect.unchanged_of_permanent h.sound hne
        (perform_effect h.sound (Phase.call_isFor hcall) now) hnot)
    cases phase with
    | ended outcome =>
      refine iff_of_true (fun g hg => ?_) trivial
      show permanentFailure c s = some g
      rw [hf]
      exact hg
    | starting => exact iff_of_true (hcareful rfl id) trivial
    | reading => exact iff_of_true (hcareful rfl id) trivial
    | acquiring body => exact iff_of_true (hcareful rfl id) trivial
    | failing stage failure objectRef raised =>
      by_cases hok : ∃ t, fail c stage failure objectRef now s = (.ok (), t)
      · obtain ⟨t, ht⟩ := hok
        have hstage := ((fail_ok_iff h.sound hrow hparse).mp ⟨t, ht⟩).1
        have hperform : perform (.fail c stage failure objectRef) now s = (.ok .done, t) :=
          wrapped_eq_ok.mpr ⟨(), ht, rfl⟩
        show (∀ g ∈ some f, permanentFailure c (perform _ now s).2 = some g) ↔ ∀ g ∈ permanentFailure c s, _
        rw [hperform, hf]
        simp only [Option.mem_def, Option.some.injEq, forall_eq', permanentFailure_fail hrow hparse ht]
        constructor
        · intro hrecorded
          split_ifs at hrecorded with hkind
          exact .inr ⟨(Option.some.inj hrecorded).symm, hkind⟩
        · rintro (⟨hparsing, hfirst⟩ | ⟨rfl, hkind⟩)
          · exact absurd (hacquire.mp hfirst) (hstage hparsing)
          · rw [if_pos hkind]
      · have hperform : (perform (.fail c stage failure objectRef) now s).2 = s := by
          cases hanswer : (perform (.fail c stage failure objectRef) now s).1 with
          | error e => exact perform_error hanswer
          | ok a =>
            obtain ⟨⟨⟩, ht, -⟩ := wrapped_eq_ok.mp (Prod.ext hanswer rfl)
            exact absurd ⟨_, ht⟩ hok
        refine iff_of_true (hsame rfl hperform) fun g hg => .inl ?_
        obtain rfl := Option.some.inj (hf.symm.trans hg)
        by_contra hnot
        refine hok ((fail_ok_iff h.sound hrow hparse).mpr ⟨fun hparsing hfailed => ?_, fun _ _ => hu⟩)
        exact hnot ⟨hparsing, hacquire.mpr hfailed⟩
    | completing document chunks warnings =>
      have hobject := hfits.1.resolve_left (mt (succeeded_iff hrow).mp hparse)
      obtain ⟨source, hsource⟩ := Option.ne_none_iff_exists'.mp hobject.2
      have hiff : (∃ r t, complete c c.objectReference document chunks warnings now s = (.ok r, t))
          ↔ s.takesDocument document chunks = true :=
        (complete_ok_iff h hrow hparse hobject hsource).trans (and_iff_left (hu source hsource))
      by_cases htakes : s.takesDocument document chunks = true
      · obtain ⟨r, t, ht⟩ := hiff.mpr htakes
        have hperform : perform (.complete c c.objectReference document chunks warnings) now s
            = (.ok (.result r), t) := wrapped_eq_ok.mpr ⟨r, ht, rfl⟩
        refine iff_of_false (fun hall => ?_) fun hkeeps => ?_
        · have hrecorded := hall f rfl
          change permanentFailure c (perform _ now s).2 = some f at hrecorded
          rw [hperform, (of_complete h.sound ht).2] at hrecorded
          cases hrecorded
        · exact absurd (htakes.symm.trans (hkeeps hne)) (by decide)
      · have hperform : (perform (.complete c c.objectReference document chunks warnings) now s).2 = s := by
          cases hanswer : (perform (.complete c c.objectReference document chunks warnings) now s).1 with
          | error e => exact perform_error hanswer
          | ok a =>
            obtain ⟨r, ht, -⟩ := wrapped_eq_ok.mp (Prod.ext hanswer rfl)
            exact absurd (hiff.mp ⟨r, _, ht⟩) htakes
        exact iff_of_true (hsame rfl hperform) fun _ => Bool.eq_false_iff.mpr htakes

theorem System.phase_fits (h : Coherent c σ) {step : Step} {phase : Phase}
    (hphase : σ.phaseOf step = some phase) : phase.Fits c σ.tables := by
  cases step with
  | spawn | downstream => cases hphase
  | advance i outside now =>
    obtain ⟨r, hr, rfl⟩ := Option.map_eq_some_iff.mp hphase
    exact h.phases r (List.mem_of_getElem? hr)

/-- What stays from one state to another. -/
def Stays (c : IngestSourceInput) (s t : KnowledgeTables) : Prop :=
  (Succeeded c s → Succeeded c t
    ∧ (t.document? c.documentId).map DocumentRow.content = (s.document? c.documentId).map DocumentRow.content
    ∧ t.chunksOf = s.chunksOf)
  ∧ ∀ f ∈ permanentFailure c s, permanentFailure c t = some f

theorem final_iff_stays (h : Sound c t) : Final c s t ↔ Stays c s t := by
  refine and_congr_right fun _ => forall₂_congr fun f _ => ⟨And.left, fun hf => ⟨hf, ?_⟩⟩
  exact not_succeeded_of_permanentFailure h (by simp [hf])

theorem Stays.trans {u : KnowledgeTables} (hst : Stays c s t) (htu : Stays c t u) : Stays c s u := by
  refine ⟨fun hs => ?_, fun f hf => htu.2 f (hst.2 f hf)⟩
  obtain ⟨ht, hdocument, hchunks⟩ := hst.1 hs
  obtain ⟨hu, hdocument', hchunks'⟩ := htu.1 ht
  exact ⟨hu, hdocument'.trans hdocument, hchunks'.trans hchunks⟩

/-- **Steps.**  What is final stays in a step exactly when the step meets the condition. -/
theorem stays_step_iff (h : Coherent c σ) (hu : Unretracted c σ.tables) (step : Step) :
    Stays c σ.tables (System.exec c step σ).2.tables ↔ Keeps c σ step := by
  have hlater := (h.exec step).2.succeeded
  refine (and_iff_right hlater).trans ?_
  cases step with
  | spawn bucket =>
    refine iff_of_true (fun f hf => ?_) fun phase hphase => by cases hphase
    show permanentFailure c (if isBlank bucket then σ else _ : System).tables = some f
    split_ifs <;> exact hf
  | downstream stage state code kind detail now =>
    refine iff_of_true (fun f hf => ?_) fun phase hphase => by cases hphase
    rcases System.effect_exec h.tables.sound (.downstream stage state code kind detail now) with
      hsame | ⟨call, hcall, heffect⟩
    · rw [hsame]
      exact hf
    · obtain rfl := Option.some.inj hcall
      have hne : permanentFailure c σ.tables ≠ none := by simp [Option.mem_def.mp hf]
      rw [heffect.unchanged_of_permanent h.tables.sound hne id]
      exact hf
  | advance i outside now =>
    cases hr : σ.runners[i]? with
    | none =>
      rw [System.exec_advance_none hr]
      exact iff_of_true (fun f hf => hf) fun phase hphase => by simp [System.phaseOf, hr] at hphase
    | some r =>
      have hphase : σ.phaseOf (.advance i outside now) = some r.phase := by simp [System.phaseOf, hr]
      rw [System.exec_advance hr, Keeps, hphase]
      simp only [Option.mem_def, Option.some.injEq, forall_eq']
      exact r.phase.keeps_iff h.tables hu (System.phase_fits h hphase) r.bucket outside now

theorem System.unretracted_exec (h : Coherent c σ) (hu : Unretracted c σ.tables) (step : Step) :
    Unretracted c (exec c step σ).2.tables := by
  rcases effect_exec h.tables.sound step with hsame | ⟨call, -, heffect⟩
  · rw [hsame]
    exact hu
  · exact hu.effect h.tables.sound heffect

/-! ### Reports -/

/-- What callers have been told is so. -/
structure Told (c : IngestSourceInput) (σ : System) : Prop where
  succeeded : ∀ r, σ.Reported (.ok r) → Succeeded c σ.tables
  failed : ∀ e, e.isPermanent = true → σ.Reported (.error e) → permanentFailure c σ.tables ≠ none

theorem Told.oneOutcome (h : Told c σ) (hsound : Sound c σ.tables) : OneOutcome σ := by
  rintro ⟨⟨r, hr⟩, e, he, herror⟩
  exact not_succeeded_of_permanentFailure hsound (h.failed e he herror) (h.succeeded r hr)

theorem not_offPort {e : Raised} (h : e.isPermanent = true) : ¬OffPort e := by
  cases e with
  | permanentPortError | transientPortError => exact nofun
  | driverError | citationError | valueError => cases h

/-- A runner that ends well has seen the success. -/
theorem Phase.succeeded_of_ended {phase : Phase} (h : Sound c s) (hfits : phase.Fits c s)
    {bucket : String} {outside : Outside} {r : IngestSourceResult} (hne : ∀ outcome, phase ≠ .ended outcome)
    (hnext : (phase.next c bucket outside now s).1 = .ended (.ok r)) :
    Succeeded c (phase.next c bucket outside now s).2 := by
  cases phase with
  | ended outcome => exact absurd rfl (hne outcome)
  | starting =>
    rcases attempt_cases (start c now) (afterStart c bucket outside) s with ⟨k, t, -, hk⟩ | ⟨e, -, he⟩
    · rw [next, hk] at hnext
      obtain ⟨-, -, hfailed⟩ := of_afterStart_eq_ended hnext
      cases hfailed
    · rw [next, he] at hnext
      cases hnext
  | reading =>
    obtain ⟨result, hresult⟩ := result_of h hfits
    rw [next, attempt, hresult]
    exact hfits
  | acquiring body =>
    rcases attempt_cases (acquired c c.objectReference now) (fun _ => afterAcquired c outside body) s with
      ⟨⟨⟩, t, -, hk⟩ | ⟨e, -, he⟩
    · rw [next, hk] at hnext
      dsimp only at hnext
      exact (afterAcquired_ne_ended hnext).elim
    · rw [next, he] at hnext
      cases hnext
  | failing stage failure objectRef raised =>
    rcases attempt_cases (fail c stage failure objectRef now) (fun _ => ended (.error raised)) s with
      ⟨⟨⟩, t, -, hk⟩ | ⟨e, -, he⟩
    · rw [next, hk] at hnext
      cases hnext
    · rw [next, he] at hnext
      cases hnext
  | completing document chunks warnings =>
    rcases attempt_cases (complete c c.objectReference document chunks warnings now)
      (fun r => ended (.ok r)) s with ⟨result, t, hcomplete, hk⟩ | ⟨e, -, he⟩
    · rw [next, hk]
      exact (of_complete h hcomplete).1
    · rw [next, he] at hnext
      cases hnext

/-- A runner that fails for good has seen the failure, unless it is too late. -/
theorem Phase.failure_of_ended {phase : Phase} (h : Matching c s) (hfits : phase.Fits c s)
    (hprompt : phase.Prompt c s) {bucket : String} {outside : Outside} {e : Raised}
    (he : e.isPermanent = true) (hne : ∀ outcome, phase ≠ .ended outcome)
    (hnext : (phase.next c bucket outside now s).1 = .ended (.error e)) :
    permanentFailure c (phase.next c bucket outside now s).2 ≠ none := by
  cases phase with
  | ended outcome => exact absurd rfl (hne outcome)
  | starting =>
    rcases attempt_cases (start c now) (afterStart c bucket outside) s with ⟨k, t, hstart, hk⟩ | ⟨e', he', hk⟩
    · have hsound : Sound c t := by
        have hperform : perform (.start c) now s = (.ok (.checkpoint k), t) :=
          wrapped_eq_ok.mpr ⟨k, hstart, rfl⟩
        have hcall : (StoreCall.start c).IsFor c := rfl
        exact h.sound.effect (effect_of_ok h.sound hcall hperform)
      rw [next, hk] at hnext ⊢
      obtain ⟨hparse, hterminal, -⟩ := of_afterStart_eq_ended hnext
      refine permanentFailure_ne_none hsound (start_row hstart) hparse ?_
      simpa [IngestionOperationRow.terminal, hparse] using hterminal
    · rw [next, hk] at hnext
      obtain rfl := Except.error.inj (Phase.ended.inj hnext)
      exact absurd (start_error h.sound he') (not_offPort he)
  | reading =>
    obtain ⟨result, hresult⟩ := result_of h.sound hfits
    rw [next, attempt, hresult] at hnext
    cases hnext
  | acquiring body =>
    rcases attempt_cases (acquired c c.objectReference now) (fun _ => afterAcquired c outside body) s with
      ⟨⟨⟩, t, -, hk⟩ | ⟨e', he', hk⟩
    · rw [next, hk] at hnext
      dsimp only at hnext
      exact (afterAcquired_ne_ended hnext).elim
    · obtain ⟨row, hrow⟩ := Option.ne_none_iff_exists'.mp hfits
      have hsame : (next c bucket outside now (acquiring body) s).2 = s := by
        rw [next, attempt_snd]
        exact rollback_snd_of_error he'
      rw [hsame]
      by_contra hnone
      have hok := acquired_of h hrow (or_iff_not_imp_left.mpr fun hparse hkind =>
        permanentFailure_ne_none h.sound hrow hparse hkind hnone) now
      rw [hok] at he'
      cases he'
  | failing stage failure objectRef raised =>
    obtain ⟨row, hrow⟩ := Option.ne_none_iff_exists'.mp hfits.1
    rcases attempt_cases (fail c stage failure objectRef now) (fun _ => ended (.error raised)) s with
      ⟨⟨⟩, t, hfail, hk⟩ | ⟨e', he', hk⟩
    · rw [next, hk] at hnext ⊢
      obtain rfl := Except.error.inj (Phase.ended.inj hnext)
      have hkind : failure.kind = .permanent := by
        rw [hfits.2.2, decide_eq_true_eq] at he
        exact he
      have hparse := mt (succeeded_iff hrow).mpr (hprompt hkind)
      show permanentFailure c t ≠ none
      rw [permanentFailure_fail hrow hparse hfail, if_pos hkind]
      exact Option.some_ne_none _
    · rw [next, hk] at hnext
      obtain rfl := Except.error.inj (Phase.ended.inj hnext)
      exact absurd (fail_error h.sound hrow he') (not_offPort he)
  | completing document chunks warnings =>
    rcases attempt_cases (complete c c.objectReference document chunks warnings now)
      (fun r => ended (.ok r)) s with ⟨result, t, hcomplete, hk⟩ | ⟨e', he', hk⟩
    · rw [next, hk] at hnext
      cases hnext
    · rw [next, hk] at hnext
      obtain rfl := Except.error.inj (Phase.ended.inj hnext)
      exact absurd (complete_error h hfits.1 he') (not_offPort he)

theorem Told.exec (h : Told c σ) (hcoherent : Coherent c σ) (hu : Unretracted c σ.tables) {step : Step}
    (hkeeps : Keeps c σ step) (hprompt : Prompt c σ step) : Told c (System.exec c step σ).2 := by
  have hlater := (hcoherent.exec step).2
  have hstays := ((stays_step_iff hcoherent hu step).mpr hkeeps).2
  -- What is reported now, or was reported before.
  have hreport {outcome : Except Raised IngestSourceResult}
      (hr : (System.exec c step σ).2.Reported outcome) : σ.Reported outcome
        ∨ ∃ phase bucket outside now, σ.phaseOf step = some phase ∧ phase.Fits c σ.tables
          ∧ (∀ o, phase ≠ .ended o) ∧ (phase.next c bucket outside now σ.tables).1 = .ended outcome
          ∧ (System.exec c step σ).2.tables = (phase.next c bucket outside now σ.tables).2 := by
    obtain ⟨r, hmem, hphase⟩ := hr
    rcases System.mem_runners_exec hmem with
      hold | hnew | ⟨i, outside, now, old, rfl, hold, hi, hnext, htables⟩
    · exact .inl ⟨r, hold, hphase⟩
    · rw [hnew] at hphase
      cases hphase
    · rw [hphase] at hnext
      by_cases hended : ∃ o, old.phase = .ended o
      · obtain ⟨o, ho⟩ := hended
        rw [ho] at hnext
        exact .inl ⟨old, hold, ho.trans hnext.symm⟩
      · exact .inr ⟨old.phase, old.bucket, outside, now, by simp [System.phaseOf, hi],
          hcoherent.phases old hold, not_exists.mp hended, hnext.symm, htables⟩
  constructor
  · intro r hr
    rcases hreport hr with hold | ⟨phase, bucket, outside, now, -, hfits, hne, hnext, htables⟩
    · exact (hlater.succeeded (h.succeeded r hold)).1
    · rw [htables]
      exact Phase.succeeded_of_ended hcoherent.tables.sound hfits hne hnext
  · intro e he hr
    rcases hreport hr with hold | ⟨phase, bucket, outside, now, hphase, hfits, hne, hnext, htables⟩
    · obtain ⟨f, hf⟩ := Option.ne_none_iff_exists'.mp (h.failed e he hold)
      rw [hstays f hf]
      exact Option.some_ne_none f
    · rw [htables]
      exact Phase.failure_of_ended hcoherent.tables hfits (hprompt phase hphase) he hne hnext

/-! ### Runs -/

/-- What every step of the runners keeps. -/
def Running (c : IngestSourceInput) (σ : System) : Prop := Coherent c σ ∧ Unretracted c σ.tables

theorem Running.exec (h : Running c σ) (step : Step) : Running c (System.exec c step σ).2 :=
  ⟨(h.1.exec step).1, System.unretracted_exec h.1 h.2 step⟩

theorem Fresh.running (h : Fresh c s) : Running c { tables := s } := by
  refine ⟨h.coherent, fun source hsource => ?_⟩
  rw [h.source] at hsource
  cases hsource

/-- The state after some steps, from tables without the operation. -/
abbrev stateAfter (c : IngestSourceInput) (s : KnowledgeTables) (steps : List Step) : System :=
  after (System.exec c) { tables := s } steps

theorem Fresh.running_after (h : Fresh c s) (steps : List Step) : Running c (stateAfter c s steps) :=
  after_invariant (fun _ step hrunning _ => hrunning.exec step) h.running
    (along_of_forall (P := fun _ _ => True) (fun _ _ => trivial) _ steps)

/-- **Final outcomes.**  From tables that have nothing of the operation, whatever the runners do and in
    whatever order: what is final stays between any two states exactly when every step keeps it, and if
    no runner fails for good after a success, callers are told one outcome. -/
theorem outcome_final (hfresh : Fresh c s) (steps : List Step) :
    ((∀ earlier middle later, steps = earlier ++ middle ++ later →
        Final c (stateAfter c s earlier).tables (stateAfter c s (earlier ++ middle)).tables)
      ↔ Along (System.exec c) (Keeps c) { tables := s } steps)
    ∧ (Along (System.exec c) (fun σ step => Keeps c σ step ∧ Prompt c σ step) { tables := s } steps →
        ∀ earlier later, steps = earlier ++ later → OneOutcome (stateAfter c s earlier)) := by
  constructor
  · have hstays : Along (System.exec c)
        (fun σ step => Stays c σ.tables (System.exec c step σ).2.tables) { tables := s } steps
          ↔ Along (System.exec c) (Keeps c) { tables := s } steps :=
      @along_congr_of_invariant System Step Unit (System.exec c) (Running c) _ _
        (fun _ step h => h.exec step) (fun _ step h => stays_step_iff h.1 h.2 step) { tables := s }
        hfresh.running steps
    have hmiddle : (∀ earlier middle later, steps = earlier ++ middle ++ later →
          Stays c (stateAfter c s earlier).tables (stateAfter c s (earlier ++ middle)).tables)
        ↔ Along (System.exec c) (fun σ step => Stays c σ.tables (System.exec c step σ).2.tables)
          { tables := s } steps :=
      forall_middle_iff_along (R := fun (σ τ : System) => Stays c σ.tables τ.tables)
        (fun _ => ⟨fun h => ⟨h, rfl, rfl⟩, fun _ hf => hf⟩) fun _ _ _ => Stays.trans
    refine Iff.trans ?_ (hmiddle.trans hstays)
    refine forall_congr' fun earlier => forall_congr' fun middle => forall₂_congr fun later _ => ?_
    exact final_iff_stays (hfresh.running_after (earlier ++ middle)).1.tables.sound
  · rintro halong earlier later rfl
    have hstep (σ : System) (step : Step) (h : Running c σ ∧ Told c σ)
        (hboth : Keeps c σ step ∧ Prompt c σ step) :
        Running c (System.exec c step σ).2 ∧ Told c (System.exec c step σ).2 :=
      ⟨h.1.exec step, h.2.exec h.1.1 h.1.2 hboth.1 hboth.2⟩
    have hnothing : Told c { tables := s } :=
      ⟨fun _ ⟨_, hmem, _⟩ => absurd hmem List.not_mem_nil, fun _ _ ⟨_, hmem, _⟩ =>
        absurd hmem List.not_mem_nil⟩
    obtain ⟨hrunning, htold⟩ :=
      after_invariant hstep ⟨hfresh.running, hnothing⟩ (along_append.mp halong).1
    exact htold.oneOutcome hrunning.1.tables.sound

/-! ### A runner that is slow -/

/-- A text file without content. -/
def sampleInput : IngestSourceInput where
  title := "Minutes"
  citation := "Minutes of the council"
  mediaType := "text/plain"
  sizeBytes := 0
  operationId := Session.sampleId 1
  workspaceId := Session.sampleId 2
  namespaceId := Session.sampleId 3
  sourceId := Session.sampleId 4
  documentId := Session.sampleId 5
  declaredContentHash := ⟨"sha256:e3b0c44298fc1c149afbf4c8996fb92427ae41e4649b934ca495991b7852b855", by decide⟩
  objectBucket := "artifacts"
  objectKey := "sources/e3b0c44298fc1c149afbf4c8996fb92427ae41e4649b934ca495991b7852b855"
  notBlank := by decide
  contentAddressed := by decide

/-- The object store answers, and the parser finds no blocks. -/
def readable : Outside where
  object := .body []
  parse format _ := .parsed { format, parser := "plain", parserVersion := "1", blocks := [] } []

/-- The object store refuses. -/
def refusing : Outside := { readable with object := .portError }

theorem sample_fresh : Fresh sampleInput {} := ⟨rfl, rfl, rfl⟩

/-- The second runner has read the object when the first one fails for good. -/
def overtaken : List Step :=
  [.spawn "artifacts", .spawn "artifacts", .advance 0 refusing (Session.noon 0),
   .advance 1 readable (Session.noon 1), .advance 1 readable (Session.noon 2),
   .advance 0 refusing (Session.noon 3)]

theorem outcome_final_overtaken :
    (∀ earlier middle later, overtaken = earlier ++ middle ++ later →
        Final sampleInput (stateAfter sampleInput {} earlier).tables
          (stateAfter sampleInput {} (earlier ++ middle)).tables)
      ↔ Along (System.exec sampleInput) (Keeps sampleInput) { tables := {} } overtaken :=
  (outcome_final sample_fresh overtaken).1

/-- The failure that the first runner records, and the rows and the tables of the run. -/
def refusal : Failure :=
  ⟨.objectStoreFailure, .permanent, "source object could not be stored and verified"⟩

def startedRow : IngestionOperationRow := sampleInput.newOperation (Session.noon 0)

def restartedRow : IngestionOperationRow := startedRow.restarted (Session.noon 1)

def acquiredRow : IngestionOperationRow :=
  restartedRow.acquired sampleInput.objectReference (Session.noon 2)

def failedRow : IngestionOperationRow := acquiredRow.failedIn .acquire refusal none (Session.noon 3)

def startedTables : KnowledgeTables := ({} : KnowledgeTables).withOperation startedRow

def restartedTables : KnowledgeTables := startedTables.withOperation restartedRow

def acquiredTables : KnowledgeTables :=
  (restartedTables.withSource (sampleInput.newSource sampleInput.objectReference)).withOperation acquiredRow

def failedTables : KnowledgeTables := acquiredTables.withOperation failedRow

theorem start_sample : start sampleInput (Session.noon 0) {}
    = (.ok ⟨startedRow, IngestionOperationRow.consistent_newOperation sampleInput⟩, startedTables) :=
  start_eq_ok.mpr (.inl ⟨rfl, rfl, rfl, rfl⟩)

theorem restart_sample : start sampleInput (Session.noon 1) startedTables
    = (.ok ⟨restartedRow, IngestionOperationRow.consistent_restarted ⟨rfl, rfl⟩⟩, restartedTables) :=
  start_eq_ok.mpr (.inr ⟨startedRow, rfl, rfl, IngestionOperationRow.consistent_newOperation sampleInput,
    .inr ⟨rfl, rfl, rfl, rfl⟩⟩)

theorem acquired_sample : acquired sampleInput sampleInput.objectReference (Session.noon 2) restartedTables
    = (.ok (), acquiredTables) :=
  acquired_eq_ok.mpr ⟨restartedRow, rfl, rfl, IngestionOperationRow.consistent_restarted ⟨rfl, rfl⟩,
    .inr ⟨by decide, by decide, rfl, _, acquiredSource_eq_ok.mpr (.inl ⟨rfl, rfl, rfl⟩), rfl⟩⟩

theorem fail_sample : fail sampleInput .acquire refusal none (Session.noon 3) acquiredTables
    = (.ok (), failedTables) :=
  fail_eq_ok.mpr ⟨acquiredRow, rfl, rfl, .inr ⟨by decide, rfl, _,
    failedSource_eq_ok.mpr (.inr ⟨nofun, rfl⟩), rfl⟩⟩

/-- The document that the second runner has parsed. -/
def parsedDocument : DocumentRow :=
  documentOf sampleInput { format := .txt, parser := "plain", parserVersion := "1", blocks := [] }

/-- The two runners, in the phases of the run. -/
def startingRunner : Runner := { bucket := "artifacts" }

def failingRunner : Runner where
  bucket := "artifacts"
  phase := .failing .acquire refusal none
    (.permanentPortError "source object verification failed" "source_ingestion")

def failedRunner : Runner where
  bucket := "artifacts"
  phase := .ended (.error (.permanentPortError "source object verification failed" "source_ingestion"))

def acquiringRunner : Runner := { bucket := "artifacts", phase := .acquiring [] }

def completingRunner : Runner := { bucket := "artifacts", phase := .completing parsedDocument [] [] }

theorem after_overtaken : stateAfter sampleInput {} overtaken
    = { tables := failedTables, runners := [failedRunner, completingRunner] } := by
  have hspawn (runners : List Runner) : (System.exec sampleInput (.spawn "artifacts") ⟨{}, runners⟩).2
      = ⟨{}, runners ++ [startingRunner]⟩ := rfl
  have hstart : (System.exec sampleInput (.advance 0 refusing (Session.noon 0))
      ⟨{}, [startingRunner, startingRunner]⟩).2 = ⟨startedTables, [failingRunner, startingRunner]⟩ := by
    rw [System.exec_advance rfl, startingRunner, Phase.next, Phase.attempt_of start_sample]
    rfl
  have hrestart : (System.exec sampleInput (.advance 1 readable (Session.noon 1))
      ⟨startedTables, [failingRunner, startingRunner]⟩).2
      = ⟨restartedTables, [failingRunner, acquiringRunner]⟩ := by
    rw [System.exec_advance rfl, startingRunner, Phase.next, Phase.attempt_of restart_sample]
    rfl
  have hacquired : (System.exec sampleInput (.advance 1 readable (Session.noon 2))
      ⟨restartedTables, [failingRunner, acquiringRunner]⟩).2
      = ⟨acquiredTables, [failingRunner, completingRunner]⟩ := by
    rw [System.exec_advance rfl, acquiringRunner, Phase.next, Phase.attempt_of acquired_sample]
    rfl
  have hfail : (System.exec sampleInput (.advance 0 refusing (Session.noon 3))
      ⟨acquiredTables, [failingRunner, completingRunner]⟩).2
      = ⟨failedTables, [failedRunner, completingRunner]⟩ := by
    rw [System.exec_advance rfl, failingRunner, Phase.next, Phase.attempt_of fail_sample]
    rfl
  rw [stateAfter, overtaken, after_cons, hspawn, after_cons, hspawn, after_cons]
  show after _ (System.exec _ _ ⟨_, [startingRunner, startingRunner]⟩).2 _ = _
  rw [hstart, after_cons, hrestart, after_cons, hacquired, after_cons, hfail, after_nil]

/-- The second runner completes what has failed for good, and both outcomes have been told. -/
theorem success_after_failure :
    ¬Final sampleInput (stateAfter sampleInput {} overtaken).tables
        (stateAfter sampleInput {} (overtaken ++ [.advance 1 readable (Session.noon 4)])).tables
      ∧ ¬OneOutcome (stateAfter sampleInput {} (overtaken ++ [.advance 1 readable (Session.noon 4)])) := by
  obtain ⟨r, t, hcomplete⟩ : ∃ r t, complete sampleInput sampleInput.objectReference parsedDocument [] []
      (Session.noon 4) failedTables = (.ok r, t) :=
    ⟨_, _, complete_eq_ok.mpr ⟨failedRow, rfl, rfl, .inr ⟨by decide, rfl, rfl,
      sampleInput.newSource sampleInput.objectReference, rfl, by decide, rfl, rfl, rfl⟩⟩⟩
  have hlast : stateAfter sampleInput {} (overtaken ++ [.advance 1 readable (Session.noon 4)])
      = { tables := t, runners := [failedRunner, ⟨"artifacts", .ended (.ok r)⟩] } := by
    have hafter := after_overtaken
    unfold stateAfter at hafter ⊢
    rw [after_append, hafter, after_cons, after_nil, System.exec_advance rfl, completingRunner, Phase.next,
      Phase.attempt_of hcomplete]
    rfl
  have hsound := (sample_fresh.running_after overtaken).1.tables.sound
  rw [after_overtaken] at hsound
  have hfailed : permanentFailure sampleInput failedTables = some (.acquire, .objectStoreFailure) := rfl
  rw [hlast, after_overtaken]
  constructor
  · rintro ⟨-, hkept⟩
    exact (hkept _ hfailed).2 (of_complete hsound hcomplete).1
  · intro hone
    exact hone ⟨⟨r, _, List.mem_cons_of_mem _ List.mem_cons_self, rfl⟩, _, rfl, _, List.mem_cons_self, rfl⟩

end Agora.Ingestion
