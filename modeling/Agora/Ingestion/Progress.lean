import Agora.Ingestion.Runner

namespace Agora.Ingestion

open Stateful

/-!
# Progress of the runners

What is stored matches what the runners bring in (`Matching`), and what is there stays (`Later`); so a
runner finds what the phase it is in needs (`Coherent`), and its calls raise little: nothing but what
the constraints refuse, or that the ingestion has failed before.
-/

variable {c : IngestSourceInput} {s t : KnowledgeTables} {σ : System} {now : Datetime}

/-! ### What the runners bring in -/

/-- Parsing has succeeded. -/
def Succeeded (c : IngestSourceInput) (s : KnowledgeTables) : Prop :=
  ∃ row ∈ s.operation? c.operationId, row.parseState = .succeeded

/-- The object of the operation has been recorded. -/
def HasObject (c : IngestSourceInput) (s : KnowledgeTables) : Prop :=
  (∃ row ∈ s.operation? c.operationId, row.objectRef = some c.objectReference)
    ∧ s.source? c.sourceId ≠ none

/-- What is stored of an operation that is the only one to write its source and its document. -/
structure Matching (c : IngestSourceInput) (s : KnowledgeTables) : Prop where
  sound : Sound c s
  object : ∀ row ∈ s.operation? c.operationId, ∀ r ∈ row.objectRef, r = c.objectReference
  source : ∀ source ∈ s.source? c.sourceId,
    source.objectRef = c.objectReference ∧ source.contentHash = c.declaredContentHash
  document : ¬Succeeded c s → s.document? c.documentId = none

/-- The object and the document of a call are those of the operation. -/
def StoreCall.Refers (c : IngestSourceInput) : StoreCall → Prop
  | .acquired _ objectRef => objectRef = c.objectReference
  | .fail _ _ _ objectRef => ∀ r ∈ objectRef, r = c.objectReference
  | .complete _ _ document _ _ => document.id = c.documentId
  | _ => True

/-- What is there stays there, and the document and the chunks of a parse that has succeeded too. -/
structure Later (c : IngestSourceInput) (s t : KnowledgeTables) : Prop where
  started : s.operation? c.operationId ≠ none → t.operation? c.operationId ≠ none
  hasObject : HasObject c s → HasObject c t
  succeeded : Succeeded c s → Succeeded c t
    ∧ (t.document? c.documentId).map DocumentRow.content = (s.document? c.documentId).map DocumentRow.content
    ∧ t.chunksOf = s.chunksOf

theorem Later.refl (s : KnowledgeTables) : Later c s s := ⟨id, id, fun h => ⟨h, rfl, rfl⟩⟩

theorem operation?_stored {row : IngestionOperationRow} (hid : row.id = c.operationId) :
    (s.withOperation row).operation? c.operationId = some row := by
  rw [KnowledgeTables.operation?_withOperation, if_pos hid]

theorem succeeded_iff {row : IngestionOperationRow} (hrow : s.operation? c.operationId = some row) :
    Succeeded c s ↔ row.parseState = .succeeded := by
  simp [Succeeded, hrow]

theorem hasObject_iff {row : IngestionOperationRow} (hrow : s.operation? c.operationId = some row) :
    HasObject c s ↔ row.objectRef = some c.objectReference ∧ s.source? c.sourceId ≠ none := by
  simp [HasObject, hrow]

/-- A row takes the place of another one, whose parse has not succeeded. -/
theorem later_of_row {row row' : IngestionOperationRow} (hrow : s.operation? c.operationId = some row)
    (hparse : row.parseState ≠ .succeeded) (hrow' : t.operation? c.operationId = some row')
    (hobject : row.objectRef = some c.objectReference → row'.objectRef = some c.objectReference)
    (hsource : s.source? c.sourceId ≠ none → t.source? c.sourceId ≠ none) : Later c s t := by
  refine ⟨fun _ => by simp [hrow'], fun h => ?_, fun h => absurd ((succeeded_iff hrow).mp h) hparse⟩
  obtain ⟨href, hsome⟩ := (hasObject_iff hrow).mp h
  exact (hasObject_iff hrow').mpr ⟨hobject href, hsource hsome⟩

/-- What is stored still matches, with another row. -/
theorem Matching.withRow {row : IngestionOperationRow} (hsound : Sound c t)
    (hrow : t.operation? c.operationId = some row) (hobject : ∀ r ∈ row.objectRef, r = c.objectReference)
    (hsource : ∀ source ∈ t.source? c.sourceId,
      source.objectRef = c.objectReference ∧ source.contentHash = c.declaredContentHash)
    (hdocument : row.parseState ≠ .succeeded → t.document? c.documentId = none) : Matching c t := by
  refine ⟨hsound, fun stored hstored => ?_, hsource, fun h => hdocument fun hparse => ?_⟩
  · obtain rfl := Option.some.inj (hrow.symm.trans hstored)
    exact hobject
  · exact h ((succeeded_iff hrow).mpr hparse)

/-- **Calls of runners.**  What is stored matches, and what is there stays. -/
theorem Matching.effect (h : Matching c s) {call : StoreCall} (hcall : call.Refers c)
    (heffect : Effect c s call t) : Matching c t ∧ Later c s t := by
  have hsound : Sound c t := h.sound.effect heffect
  have hnot {row : IngestionOperationRow} (hrow : s.operation? c.operationId = some row)
      (hparse : row.parseState ≠ .succeeded) : s.document? c.documentId = none :=
    h.document fun hsucceeded => hparse ((succeeded_iff hrow).mp hsucceeded)
  cases heffect with
  | unchanged => exact ⟨h, .refl _⟩
  | started now hnone =>
    have hrow' : (s.withOperation (c.newOperation now)).operation? c.operationId
        = some (c.newOperation now) := operation?_stored rfl
    refine ⟨.withRow hsound hrow' (fun r hr => absurd hr (Option.not_mem_none r)) h.source fun _ => ?_, ?_⟩
    · refine h.document ?_
      rintro ⟨row, hrow, -⟩
      rw [hnone] at hrow
      cases hrow
    · refine ⟨fun hsome => absurd hnone hsome, ?_, ?_⟩
      · rintro ⟨⟨row, hrow, -⟩, -⟩
        rw [hnone] at hrow
        cases hrow
      · rintro ⟨row, hrow, -⟩
        rw [hnone] at hrow
        cases hrow
  | restarted now hrow hterminal =>
    rename_i row
    have hparse : row.parseState ≠ .succeeded := by
      intro hparse
      simp [IngestionOperationRow.terminal, hparse] at hterminal
    have hid : (row.restarted now).id = c.operationId :=
      IngestionOperationRow.restarted_facts.1.trans (KnowledgeTables.operation?_id hrow)
    have href : (row.restarted now).objectRef = row.objectRef := by
      unfold IngestionOperationRow.restarted
      split_ifs <;> rfl
    have hrow' := operation?_stored (s := s) hid
    refine ⟨.withRow hsound hrow' (href ▸ h.object row hrow) h.source fun _ => hnot hrow hparse, ?_⟩
    exact later_of_row hrow hparse hrow' (fun hobject => href.trans hobject) id
  | acquired now hrow hparse hkind hsource =>
    rename_i row objectRef u
    obtain ⟨hnew, -, -, hdocuments, -⟩ := source?_acquired hsource
    have hid : row.id = c.operationId := KnowledgeTables.operation?_id hrow
    have hrow' : (u.withOperation (row.acquired objectRef now)).operation? c.operationId
        = some (row.acquired objectRef now) := operation?_stored hid
    obtain rfl : objectRef = c.objectReference := hcall
    refine ⟨.withRow hsound hrow' ?_ ?_ ?_, later_of_row hrow hparse hrow' (fun _ => rfl) fun _ => ?_⟩
    · exact fun r hr => (Option.some.inj hr).symm
    · intro source hmem
      rw [KnowledgeTables.source?_withOperation, hnew] at hmem
      obtain rfl := Option.some.inj hmem
      cases hstored : s.source? c.sourceId with
      | none => exact ⟨rfl, rfl⟩
      | some stored => exact h.source stored hstored
    · intro _
      rw [KnowledgeTables.document?_withOperation, KnowledgeTables.document?, hdocuments]
      exact hnot hrow hparse
    · rw [KnowledgeTables.source?_withOperation, hnew]
      exact Option.some_ne_none _
  | completed now hrow hparse hobject hdocument hsource htakes hstatus =>
    rename_i row source objectRef document chunks warnings
    have hid : row.id = c.operationId := KnowledgeTables.operation?_id hrow
    have hrow' : (s.completedWith document chunks source (row.completed warnings now)).operation?
        c.operationId = some (row.completed warnings now) := operation?_stored hid
    have hkept : ((s.withDocument document).withChunks chunks).source? c.sourceId = some source := hsource
    have hready := source?_withStatus hkept .ready
    refine ⟨.withRow hsound hrow' (h.object row hrow) ?_ fun hne => absurd rfl hne, ?_⟩
    · intro other hmem
      obtain rfl := Option.some.inj (hready.symm.trans hmem)
      exact h.source source hsource
    · refine later_of_row hrow hparse hrow' id fun _ => ?_
      show (KnowledgeTables.withSource _ _).source? c.sourceId ≠ none
      rw [hready]
      exact Option.some_ne_none _
  | failed now hrow hparse hstage hsource =>
    rename_i row stage failure objectRef u
    obtain ⟨hnew, -, -, hdocuments, -⟩ := source?_failed hsource
    have href : (row.failedIn stage failure objectRef now).objectRef = objectRef.or row.objectRef := by
      cases stage <;> rfl
    have hid : (row.failedIn stage failure objectRef now).id = c.operationId :=
      IngestionOperationRow.failedIn_facts.1.trans (KnowledgeTables.operation?_id hrow)
    have hrow' := operation?_stored (s := u) hid
    have hobject : ∀ r ∈ objectRef.or row.objectRef, r = c.objectReference := by
      intro r hr
      rcases Option.or_eq_some_iff.mp hr with hgiven | ⟨-, hstored⟩
      · exact hcall r hgiven
      · exact h.object row hrow r hstored
    refine ⟨.withRow hsound hrow' (href ▸ hobject) ?_ ?_, later_of_row hrow hparse hrow' ?_ ?_⟩
    · intro source hmem
      rw [KnowledgeTables.source?_withOperation, hnew] at hmem
      obtain ⟨stored, hstored, rfl⟩ := Option.map_eq_some_iff.mp hmem
      split_ifs
      · exact h.source stored hstored
      · exact h.source stored hstored
    · intro _
      rw [KnowledgeTables.document?_withOperation, KnowledgeTables.document?, hdocuments]
      exact hnot hrow hparse
    · intro hstored
      rw [href]
      cases hgiven : objectRef with
      | none => exact hstored
      | some r => exact congrArg some (hcall r hgiven)
    · intro hsome
      rw [KnowledgeTables.source?_withOperation, hnew]
      simpa using hsome
  | advanced now hrow hmay hdetails hrows =>
    rename_i row stage state code kind detail u
    obtain ⟨-, hsourceId, hdocumentId⟩ := ids_of_identity (h.sound.identity row hrow)
    obtain ⟨hnew, -, hcontent, -, hchunks⟩ := rows_downstream hrows
    rw [hsourceId] at hnew
    rw [hdocumentId] at hcontent
    have hparse := (IngestionOperationRow.mayAdvance_eq_ok.mp hmay).1
    have hstates : (row.advanced stage state code kind detail now).parseState = row.parseState
        ∧ (row.advanced stage state code kind detail now).objectRef = row.objectRef := by
      cases stage <;> exact ⟨rfl, rfl⟩
    have hid : (row.advanced stage state code kind detail now).id = c.operationId :=
      IngestionOperationRow.advanced_facts.1.trans (KnowledgeTables.operation?_id hrow)
    have hrow' := operation?_stored (s := u) hid
    refine ⟨.withRow hsound hrow' (hstates.2 ▸ h.object row hrow) ?_ ?_, ?_⟩
    · intro source hmem
      rw [KnowledgeTables.source?_withOperation, hnew] at hmem
      obtain ⟨stored, hstored, rfl⟩ := Option.map_eq_some_iff.mp hmem
      split_ifs
      · exact h.source stored hstored
      · exact h.source stored hstored
    · exact fun hne => absurd (hstates.1.trans hparse) hne
    · refine ⟨fun _ => by simp [hrow'], fun hobject => ?_, fun _ => ⟨?_, hcontent, ?_⟩⟩
      · obtain ⟨href, hsome⟩ := (hasObject_iff hrow).mp hobject
        refine (hasObject_iff hrow').mpr ⟨hstates.2.trans href, ?_⟩
        rw [KnowledgeTables.source?_withOperation, hnew]
        simpa using hsome
      · exact (succeeded_iff hrow').mpr (hstates.1.trans hparse)
      · rw [KnowledgeTables.chunksOf_withOperation]
        ext1 workspaceId
        ext1 documentId
        rw [KnowledgeTables.chunksOf, hchunks]
        rfl

/-! ### What calls raise -/

/-- No port has raised it. -/
abbrev OffPort (e : Raised) : Prop := e.isPortError = false

theorem raisesOnly_flush (accepts : KnowledgeTables → Bool) (f : KnowledgeTables → KnowledgeTables) :
    RaisesOnly OffPort (flush accepts f) :=
  (raisesOnly_read accepts).bind fun _ => (raisesOnly_write f).ite (raisesOnly_raise rfl)

section Raises

variable {row : IngestionOperationRow}

theorem lockedOperation_of (h : Sound c s) (hrow : s.operation? c.operationId = some row) :
    lockedOperation c s = (.ok row, s) := by
  simp [lockedOperation, bind_apply, hrow, required, assertIdentity, h.identity row hrow]

/-- The transaction of a call, from the row on. -/
theorem fst_of_locked {α : Type} (h : Sound c s) (hrow : s.operation? c.operationId = some row)
    (f : IngestionOperationRow → Statement α) :
    (rollback (lockedOperation c >>= f) s).1 = (f row s).1 := by
  rw [rollback_fst, bind_of_same (lockedOperation_of h hrow)]

/-- An operation that is there starts again. -/
theorem start_of_row (h : Sound c s) (hrow : s.operation? c.operationId = some row) (now : Datetime) :
    ∃ k, (start c now s).1 = .ok k := by
  have hconsistent := h.consistent row hrow
  by_cases hterminal : row.terminal = true
  · exact ⟨⟨row, hconsistent⟩, congrArg Prod.fst (start_eq_ok.mpr (.inr
      ⟨row, hrow, h.identity row hrow, hconsistent, .inl ⟨hterminal, rfl, rfl⟩⟩))⟩
  · rw [Bool.not_eq_true] at hterminal
    have hparse : row.parseState ≠ .succeeded := by
      intro hparse
      simp [IngestionOperationRow.terminal, hparse] at hterminal
    have hnext : (row.restarted now).Consistent :=
      IngestionOperationRow.consistent_restarted (h.waiting row hrow hparse)
    have haccepted := (IngestionOperationRow.accepted_iff _).mpr hnext
    exact ⟨⟨row.restarted now, hnext⟩, congrArg Prod.fst (start_eq_ok.mpr (.inr
      ⟨row, hrow, h.identity row hrow, hconsistent, .inr ⟨hterminal, haccepted, rfl, rfl⟩⟩))⟩

/-- A start raises what the keys refuse. -/
theorem start_error (h : Sound c s) {e : Raised} (herror : (start c now s).1 = .error e) : OffPort e := by
  cases hrow : s.operation? c.operationId with
  | some row =>
    obtain ⟨k, hok⟩ := start_of_row h hrow now
    rw [hok] at herror
    cases herror
  | none =>
    rw [start, rollback_fst, read_bind, hrow] at herror
    refine ((raisesOnly_flush _ _).bind fun _ => raisesOnly_lift fun e' he' => ?_) s e herror
    have hok := checkpoint_eq_ok (k := ⟨c.newOperation now, IngestionOperationRow.consistent_newOperation c⟩)
      |>.mpr rfl
    rw [hok] at he'
    cases he'

theorem start_row {k : IngestionCheckpoint} (h : start c now s = (.ok k, t)) :
    t.operation? c.operationId = some k.row := by
  rcases start_eq_ok.mp h with ⟨-, -, rfl, hk⟩ | ⟨row, hrow, -, -, ⟨-, hk, rfl⟩ | ⟨-, -, rfl, hk⟩⟩
  · rw [hk]
    exact operation?_stored rfl
  · rw [hk]
    exact hrow
  · rw [hk]
    exact operation?_stored (IngestionOperationRow.restarted_facts.1.trans (KnowledgeTables.operation?_id hrow))

theorem result_of (h : Sound c s) (hsucceeded : Succeeded c s) :
    ∃ r, result c.workspaceId c.operationId s = (.ok r, s) := by
  obtain ⟨row, hrow, hparse⟩ := hsucceeded
  obtain ⟨hworkspace, -, -⟩ := ids_of_identity (h.identity row hrow)
  obtain ⟨r, hr⟩ : ∃ r, resultOf row s = (.ok r, s) := ⟨_, rfl⟩
  refine ⟨r, ?_⟩
  rw [result, read_bind, hrow]
  exact required_bind_eq_ok.mpr ⟨row, rfl, ensure_bind_eq_ok.mpr ⟨hworkspace,
    ensure_bind_eq_ok.mpr ⟨hparse, hr⟩⟩⟩

/-- Acquiring returns, unless the ingestion has failed for good. -/
theorem acquired_of (h : Matching c s) (hrow : s.operation? c.operationId = some row)
    (hkind : row.parseState = .succeeded ∨ row.failureKind ≠ some .permanent) (now : Datetime) :
    (acquired c c.objectReference now s).1 = .ok () := by
  have hconsistent := h.sound.consistent row hrow
  have hidentity := h.sound.identity row hrow
  by_cases hparse : row.parseState = .succeeded
  · exact congrArg Prod.fst (acquired_eq_ok.mpr ⟨row, hrow, hidentity, hconsistent, .inl ⟨hparse, rfl⟩⟩)
  · have haccepted : (row.acquired c.objectReference now).accepted = true :=
      (IngestionOperationRow.accepted_iff _).mpr
        (IngestionOperationRow.consistent_acquired (h.sound.waiting row hrow hparse) c.objectReference)
    have hsource : ∃ t, acquiredSource c c.objectReference s = (.ok (), t) := by
      cases hstored : s.source? c.sourceId with
      | some source =>
        obtain ⟨hobject, hhash⟩ := h.source source hstored
        exact ⟨s, acquiredSource_eq_ok.mpr (.inr ⟨source, hstored, hobject, hhash, rfl⟩)⟩
      | none =>
        refine ⟨_, acquiredSource_eq_ok.mpr (.inl ⟨hstored, ?_, rfl⟩)⟩
        rw [Bool.and_eq_true, List.all_eq_true]
        refine ⟨fun other hother => ?_, rfl⟩
        simpa using List.find?_eq_none.mp hstored other hother
    obtain ⟨t, ht⟩ := hsource
    exact congrArg Prod.fst (acquired_eq_ok.mpr ⟨row, hrow, hidentity, hconsistent,
      .inr ⟨hparse, hkind.resolve_left hparse, haccepted, t, ht, rfl⟩⟩)

/-- Failing raises nothing of a port. -/
theorem fail_error (h : Sound c s) (hrow : s.operation? c.operationId = some row) {stage : AttemptStage}
    {failure : Failure} {objectRef : Option String} {e : Raised}
    (herror : (fail c stage failure objectRef now s).1 = .error e) : OffPort e := by
  rw [fail, fst_of_locked h hrow] at herror
  refine ((raisesOnly_pure ()).ite (.bind ?_ fun _ => raisesOnly_flush _ _)) s e herror
  refine (raisesOnly_read _).bind fun source? => ?_
  split
  · exact raisesOnly_flush _ _
  · exact raisesOnly_pure ()

/-- When a failure is recorded. -/
theorem fail_ok_iff (h : Sound c s) (hrow : s.operation? c.operationId = some row)
    (hparse : row.parseState ≠ .succeeded) {stage : AttemptStage} {failure : Failure}
    {objectRef : Option String} :
    (∃ t, fail c stage failure objectRef now s = (.ok (), t))
      ↔ (stage = .parse → row.acquireState ≠ .failed)
        ∧ (stage = .parse → failure.kind = .permanent →
            ∀ source ∈ s.source? c.sourceId, source.status ≠ .retracted) := by
  have haccepted : (row.failedIn stage failure objectRef now).accepted = true
      ↔ (stage = .parse → row.acquireState ≠ .failed) :=
    (IngestionOperationRow.accepted_iff _).trans
      (IngestionOperationRow.consistent_failedIn (h.waiting row hrow hparse) stage failure objectRef)
  constructor
  · rintro ⟨t, ht⟩
    obtain ⟨stored, hstored, -, ⟨hdone, -⟩ | ⟨-, hrecorded, u, hsource, -⟩⟩ := fail_eq_ok.mp ht
    · obtain rfl := Option.some.inj (hrow.symm.trans hstored)
      exact absurd hdone hparse
    · obtain rfl := Option.some.inj (hrow.symm.trans hstored)
      exact ⟨haccepted.mp hrecorded, fun hstage hkind source hmem =>
        ((source?_failed hsource).2.1 ⟨hstage, hkind⟩ source hmem).2⟩
  · rintro ⟨hacquire, hretracted⟩
    have hsource : ∃ u, failedSource c stage failure.kind s = (.ok (), u) := by
      by_cases hmarks : stage = .parse ∧ failure.kind = .permanent ∧ s.source? c.sourceId ≠ none
      · obtain ⟨hstage, hkind, hsome⟩ := hmarks
        obtain ⟨source, hstored⟩ := Option.ne_none_iff_exists'.mp hsome
        refine ⟨_, failedSource_eq_ok.mpr (.inl ⟨hstage, hkind, source, hstored, ?_, rfl⟩)⟩
        exact (mayBecome_withStatus (h.source source hstored) (by decide)).mpr
          (hretracted hstage hkind source hstored)
      · exact ⟨s, failedSource_eq_ok.mpr (.inr ⟨hmarks, rfl⟩)⟩
    obtain ⟨u, hu⟩ := hsource
    exact ⟨_, fail_eq_ok.mpr ⟨row, hrow, h.identity row hrow,
      .inr ⟨hparse, haccepted.mpr hacquire, u, hu, rfl⟩⟩⟩

/-- Completing what has been recorded raises nothing of a port. -/
theorem complete_error (h : Matching c s) (hobject : Succeeded c s ∨ HasObject c s)
    {document : DocumentRow} {chunks : List KnowledgeChunkRow} {warnings : List String} {e : Raised}
    (herror : (complete c c.objectReference document chunks warnings now s).1 = .error e) : OffPort e := by
  obtain ⟨row, hrow⟩ : ∃ row, s.operation? c.operationId = some row := by
    rcases hobject with ⟨row, hrow, -⟩ | ⟨⟨row, hrow, -⟩, -⟩
    · exact ⟨row, hrow⟩
    · exact ⟨row, hrow⟩
  rw [complete, fst_of_locked h.sound hrow] at herror
  by_cases hparse : row.parseState = .succeeded
  · rw [if_pos hparse] at herror
    exact raisesOnly_read (P := OffPort) _ s e herror
  · have hnot : ¬Succeeded c s := mt (succeeded_iff hrow).mp hparse
    obtain ⟨href, hsome⟩ := (hasObject_iff hrow).mp (hobject.resolve_left hnot)
    obtain ⟨source, hsource⟩ := Option.ne_none_iff_exists'.mp hsome
    rw [if_neg hparse, bind_of_same (a := ()) (by rw [ensure, if_pos href]; rfl), read_bind,
      bind_of_same (a := ()) (by rw [ensure, if_pos (h.document hnot)]; rfl), read_bind, hsource] at herror
    refine RaisesOnly.bind (P := OffPort) (raisesOnly_pure source) (fun _ => ?_) s e herror
    refine (raisesOnly_flush _ _).bind fun _ => (raisesOnly_flush _ _).bind fun _ => ?_
    exact (raisesOnly_flush _ _).bind fun _ => (raisesOnly_flush _ _).bind fun _ => raisesOnly_read _

/-- When a source is completed. -/
theorem complete_ok_iff (h : Matching c s) (hrow : s.operation? c.operationId = some row)
    (hparse : row.parseState ≠ .succeeded) (hobject : HasObject c s) {source : SourceRow}
    (hsource : s.source? c.sourceId = some source) {document : DocumentRow}
    {chunks : List KnowledgeChunkRow} {warnings : List String} :
    (∃ r t, complete c c.objectReference document chunks warnings now s = (.ok r, t))
      ↔ s.takesDocument document chunks = true ∧ source.status ≠ .retracted := by
  have hready : (source.mayBecome (source.withStatus .ready) && (source.withStatus .ready).accepted) = true
      ↔ source.status ≠ .retracted := mayBecome_withStatus (h.sound.source source hsource) (by decide)
  constructor
  · rintro ⟨r, t, ht⟩
    obtain ⟨stored, hstored, -, ⟨hdone, -⟩ | ⟨-, -, -, other, hother, htakes, hbecome, -⟩⟩ :=
      complete_eq_ok.mp ht
    · obtain rfl := Option.some.inj (hrow.symm.trans hstored)
      exact absurd hdone hparse
    · obtain rfl := Option.some.inj (hsource.symm.trans hother)
      exact ⟨htakes, hready.mp hbecome⟩
  · rintro ⟨htakes, hretracted⟩
    have haccepted : (row.completed warnings now).accepted = true :=
      (IngestionOperationRow.accepted_iff _).mpr
        (IngestionOperationRow.consistent_completed (h.sound.waiting row hrow hparse) warnings)
    exact ⟨_, _, complete_eq_ok.mpr ⟨row, hrow, h.sound.identity row hrow, .inr ⟨hparse,
      ((hasObject_iff hrow).mp hobject).1, h.document (mt (succeeded_iff hrow).mp hparse), source, hsource,
      htakes, hready.mpr hretracted, haccepted, rfl⟩⟩⟩

end Raises

/-! ### Phases -/

/-- What a phase needs is there. -/
def Phase.Fits (c : IngestSourceInput) (s : KnowledgeTables) : Phase → Prop
  | .starting | .ended _ => True
  | .reading => Succeeded c s
  | .acquiring _ => s.operation? c.operationId ≠ none
  | .failing _ failure objectRef raised => s.operation? c.operationId ≠ none
    ∧ (∀ r ∈ objectRef, r = c.objectReference)
    ∧ raised.isPermanent = decide (failure.kind = .permanent)
  | .completing document _ _ => (Succeeded c s ∨ HasObject c s) ∧ document.id = c.documentId

/-- What is stored matches, and every runner finds what it needs. -/
structure Coherent (c : IngestSourceInput) (σ : System) : Prop where
  tables : Matching c σ.tables
  phases : ∀ r ∈ σ.runners, r.phase.Fits c σ.tables

theorem Phase.Fits.later {phase : Phase} (h : phase.Fits c s) (hlater : Later c s t) : phase.Fits c t := by
  cases phase with
  | starting | ended => trivial
  | reading => exact (hlater.succeeded h).1
  | acquiring body => exact hlater.started h
  | failing stage failure objectRef raised => exact ⟨hlater.started h.1, h.2⟩
  | completing document chunks warnings =>
    exact ⟨h.1.imp (fun hdone => (hlater.succeeded hdone).1) hlater.hasObject, h.2⟩

theorem Phase.Fits.refers {phase : Phase} (h : phase.Fits c s) {call : StoreCall}
    (hcall : phase.call c = some call) : call.Refers c := by
  cases phase with
  | ended outcome => cases hcall
  | starting | reading =>
    obtain rfl := Option.some.inj hcall
    trivial
  | acquiring body =>
    obtain rfl := Option.some.inj hcall
    rfl
  | failing stage failure objectRef raised =>
    obtain rfl := Option.some.inj hcall
    exact h.2.1
  | completing document chunks warnings =>
    obtain rfl := Option.some.inj hcall
    exact h.2

theorem Phase.fits_permanent {stage : AttemptStage} {code : IngestionFailureCode} {detail message : String}
    {objectRef : Option String} (hsome : s.operation? c.operationId ≠ none)
    (hobject : ∀ r ∈ objectRef, r = c.objectReference) :
    (permanent stage code detail objectRef message).Fits c s := ⟨hsome, hobject, rfl⟩

theorem Phase.fits_transient {stage : AttemptStage} {detail : String} {objectRef : Option String}
    (hsome : s.operation? c.operationId ≠ none) (hobject : ∀ r ∈ objectRef, r = c.objectReference) :
    (transient stage detail objectRef).Fits c s := ⟨hsome, hobject, rfl⟩

/-- A runner that has started the operation. -/
theorem Phase.fits_afterStart {k : IngestionCheckpoint} (hk : s.operation? c.operationId = some k.row)
    (bucket : String) (outside : Outside) : (afterStart c bucket outside k).Fits c s := by
  have hsome : s.operation? c.operationId ≠ none := by simp [hk]
  unfold afterStart
  split_ifs with hparse hterminal hbucket
  · exact ⟨k.row, hk, hparse⟩
  · trivial
  · exact fits_permanent hsome nofun
  · unfold afterObject
    cases outside.object with
    | body bytes =>
      show Fits c s (ite _ _ _)
      split_ifs
      · exact fits_permanent hsome nofun
      · exact hsome
    | integrityError => exact fits_permanent hsome nofun
    | transientPortError message port => exact ⟨hsome, nofun, rfl⟩
    | portError => exact fits_permanent hsome nofun
    | otherError => exact fits_transient hsome nofun

/-- A runner that has recorded its object. -/
theorem Phase.fits_afterAcquired (hobject : Succeeded c s ∨ HasObject c s) (outside : Outside)
    (body : Bytes) : (afterAcquired c outside body).Fits c s := by
  have hsome : s.operation? c.operationId ≠ none := by
    rcases hobject with ⟨row, hrow, -⟩ | ⟨⟨row, hrow, -⟩, -⟩
    · simp [Option.mem_def.mp hrow]
    · simp [Option.mem_def.mp hrow]
  have href : ∀ r ∈ some c.objectReference, r = c.objectReference := fun r hr => (Option.some.inj hr).symm
  unfold afterAcquired
  cases mediaFormat c.mediaType with
  | none => exact fits_permanent hsome href
  | some format =>
    dsimp only
    cases outside.parse format body with
    | parsed document chunks => exact ⟨hobject, rfl⟩
    | permanentPortError => exact fits_permanent hsome href
    | otherError => exact fits_transient hsome href

theorem hasObject_acquired (h : acquired c c.objectReference now s = (.ok (), t)) :
    Succeeded c t ∨ HasObject c t := by
  obtain ⟨row, hrow, -, -, ⟨hparse, rfl⟩ | ⟨-, -, -, u, hsource, rfl⟩⟩ := acquired_eq_ok.mp h
  · exact .inl ⟨row, hrow, hparse⟩
  · have hid : row.id = c.operationId := KnowledgeTables.operation?_id hrow
    refine .inr ⟨⟨_, operation?_stored hid, rfl⟩, ?_⟩
    rw [KnowledgeTables.source?_withOperation, (source?_acquired hsource).1]
    exact Option.some_ne_none _

/-- The next phase of a runner, by what its call has answered. -/
theorem Phase.attempt_cases {α : Type} (call : Statement α) (next : α → Phase) (s : KnowledgeTables) :
    (∃ a t, call s = (.ok a, t) ∧ attempt call next s = (next a, t))
      ∨ ∃ e, (call s).1 = .error e ∧ (attempt call next s).1 = ended (.error e) := by
  unfold attempt
  cases hcall : call s with
  | mk answer t =>
    cases answer with
    | ok a => exact .inl ⟨a, t, rfl, rfl⟩
    | error e => exact .inr ⟨e, rfl, rfl⟩

/-- The next phase of a runner fits what its call has left. -/
theorem Phase.fits_next {phase : Phase} (bucket : String) (outside : Outside) (now : Datetime) :
    (phase.next c bucket outside now s).1.Fits c (phase.next c bucket outside now s).2 := by
  have hattempt {α : Type} {call : Statement α} {next : α → Phase}
      (hok : ∀ a t, call s = (.ok a, t) → (next a).Fits c t) :
      (attempt call next s).1.Fits c (attempt call next s).2 := by
    rcases attempt_cases call next s with ⟨a, t, hcall, hnext⟩ | ⟨e, -, hnext⟩
    · rw [hnext]
      exact hok a t hcall
    · rw [hnext]
      trivial
  cases phase with
  | ended outcome => trivial
  | starting => exact hattempt fun k t hcall => fits_afterStart (start_row hcall) bucket outside
  | reading => exact hattempt fun _ _ _ => trivial
  | acquiring body => exact hattempt fun _ _ hcall => fits_afterAcquired (hasObject_acquired hcall) outside body
  | failing stage failure objectRef raised => exact hattempt fun _ _ _ => trivial
  | completing document chunks warnings => exact hattempt fun _ _ _ => trivial

/-- The calls of coherent runners are about the object and the document of the operation. -/
theorem Coherent.refers (h : Coherent c σ) {step : Step} {call : StoreCall}
    (hcall : σ.callOf c step = some call) : call.Refers c := by
  cases step with
  | spawn bucket => cases hcall
  | downstream stage state code kind detail now =>
    obtain rfl := Option.some.inj hcall
    trivial
  | advance i outside now =>
    obtain ⟨phase, hphase, hof⟩ := Option.bind_eq_some_iff.mp hcall
    obtain ⟨r, hr, rfl⟩ := Option.map_eq_some_iff.mp hphase
    exact (h.phases r (List.mem_of_getElem? hr)).refers hof

/-- A runner that is not the one that has gone on is as it was. -/
theorem System.mem_runners_exec {step : Step} {r : Runner} (hr : r ∈ (exec c step σ).2.runners) :
    r ∈ σ.runners ∨ r.phase = .starting ∨ ∃ i outside now old, step = .advance i outside now
      ∧ old ∈ σ.runners ∧ σ.runners[i]? = some old
      ∧ r.phase = (old.phase.next c old.bucket outside now σ.tables).1
      ∧ (exec c step σ).2.tables = (old.phase.next c old.bucket outside now σ.tables).2 := by
  cases step with
  | downstream => exact .inl hr
  | spawn bucket =>
    change r ∈ (if isBlank bucket then σ else _ : System).runners at hr
    split_ifs at hr
    · exact .inl hr
    · rcases List.mem_append.mp hr with hold | hnew
      · exact .inl hold
      · obtain rfl := List.mem_singleton.mp hnew
        exact .inr (.inl rfl)
  | advance i outside now =>
    cases hi : σ.runners[i]? with
    | none =>
      rw [exec_advance_none hi] at hr
      exact .inl hr
    | some old =>
      rw [exec_advance hi] at hr ⊢
      rcases List.mem_or_eq_of_mem_set hr with hold | rfl
      · exact .inl hold
      · exact .inr (.inr ⟨i, outside, now, old, rfl, List.mem_of_getElem? hi, hi, rfl, rfl⟩)

/-- **Progress.**  A step leaves the runners coherent, and what is stored stays. -/
theorem Coherent.exec (h : Coherent c σ) (step : Step) :
    Coherent c (System.exec c step σ).2 ∧ Later c σ.tables (System.exec c step σ).2.tables := by
  have hboth : Matching c (System.exec c step σ).2.tables
      ∧ Later c σ.tables (System.exec c step σ).2.tables := by
    rcases System.effect_exec h.tables.sound step with hsame | ⟨call, hcall, heffect⟩
    · rw [hsame]
      exact ⟨h.tables, .refl _⟩
    · exact h.tables.effect (h.refers hcall) heffect
  obtain ⟨htables, hlater⟩ := hboth
  refine ⟨⟨htables, fun r hr => ?_⟩, hlater⟩
  rcases System.mem_runners_exec hr with hold | hnew | ⟨i, outside, now, old, -, -, -, hphase, hnext⟩
  · exact (h.phases r hold).later hlater
  · rw [hnew]
    trivial
  · rw [hphase, hnext]
    exact Phase.fits_next old.bucket outside now

theorem Fresh.coherent (h : Fresh c s) : Coherent c { tables := s } where
  tables :=
    { sound := h.sound
      object := fun row hrow => by rw [h.operation] at hrow; cases hrow
      source := fun source hsource => by rw [h.source] at hsource; cases hsource
      document := fun _ => h.document }
  phases _ hr := absurd hr List.not_mem_nil

end Agora.Ingestion
