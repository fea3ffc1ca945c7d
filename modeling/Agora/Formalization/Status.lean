import Agora.Formalization.Lifecycle
import Agora.Artifacts.Versions

namespace Agora.Formalization

open Artifacts (ReasoningArtifact)
open Session (sampleId noon)
open Stateful

/-!
# The status of a revision

The status of a revision follows from two facts, its validation and its decision.  What a successful
call does is in `Change`; from it follow the invariant of the tables (`WellFormed`), that a settled
status stays, and when a call answers with the status that `get` computes afterwards (`coherent_iff`).
-/

/-! ### What a call does -/

/-- What a successful call does, with the result that it returns. -/
inductive Change (s : FormalizationState) (context : FormalizationContext) :
    FormalizationCall → FormalizationResult → FormalizationState → Prop
  | recorded {call : FormalizationCall} (row : FormalizationRow) (eventType : FormalizationEventType) :
      s.freshRevision row = true → (∀ w l n id, call ≠ .validate w l n id) →
      Change s context call ⟨row, none, none, .candidate⟩
        { s with
          revisions := s.revisions ++ [row]
          events := s.events ++ [context.event eventType row .candidate] }
  | validated {w l id : UUID} {n : ℕ} (row : FormalizationRow) :
      s.current w l n = .ok row → s.validation? w row.id = none →
      Change s context (.validate w l n id)
        ⟨row, some (context.validation id row), none, deriveStatus (some (context.validation id row)) none⟩
        { s with
          validations := s.validations ++ [context.validation id row]
          events := s.events ++ [context.event .validationRecorded row
            (deriveStatus (some (context.validation id row)) none)] }
  | repeated {w l id : UUID} {n : ℕ} (row : FormalizationRow) (earlier : FormalizationValidationRow) :
      s.current w l n = .ok row → s.validation? w row.id = some earlier →
      Change s context (.validate w l n id) (s.result row) s
  | decided {w l id : UUID} {n : ℕ} {kind : FormalizationDecisionKind} {reason : String}
      (row : FormalizationRow) : s.current w l n = .ok row → s.decision? w row.id = none →
      (kind = .confirmed → (s.validation? w row.id).any (·.success) = true) →
      Change s context (.decide w l n id kind reason)
        ⟨row, s.validation? w row.id, some (context.decision id w row kind reason),
          deriveStatus (s.validation? w row.id) (some (context.decision id w row kind reason))⟩
        { s with
          decisions := s.decisions ++ [context.decision id w row kind reason]
          events := s.events ++ [context.event kind.eventType row
            (deriveStatus (s.validation? w row.id) (some (context.decision id w row kind reason)))] }

section Calls

variable {db : FormalizationDatabase} {s s' : FormalizationState} {request : FormalizationRequest}
  {result : FormalizationResult}

theorem perform_ok_iff : perform db request s = (.ok result, s')
    ↔ statements db request s = (.ok result, s') ∧ db.acceptsCommit s' = true := by
  unfold perform
  rw [rollback_eq_ok]
  constructor
  · intro h
    obtain ⟨r, t, hstatements, hrest⟩ := bind_eq_ok.mp h
    obtain ⟨haccepts, hpure⟩ := writeIf_bind_eq_ok.mp hrest
    obtain ⟨hr, rfl⟩ := Prod.mk.inj hpure
    obtain rfl := Except.ok.inj hr
    exact ⟨hstatements, haccepts⟩
  · rintro ⟨hstatements, haccepts⟩
    exact bind_eq_ok.mpr ⟨result, s', hstatements, writeIf_bind_eq_ok.mpr ⟨haccepts, rfl⟩⟩

/-- A call that raises changes nothing. -/
theorem perform_error {e : PyException} (h : (perform db request s).1 = .error e) :
    (perform db request s).2 = s := rollback_snd_of_error h

theorem record_ok {eventType : FormalizationEventType} {row : FormalizationRow}
    {context : FormalizationContext} {artifacts : List ReasoningArtifact}
    (h : record db eventType row context artifacts s = (.ok result, s')) :
    s.freshRevision row = true ∧ result = ⟨row, none, none, .candidate⟩
      ∧ s' = { s with
        revisions := s.revisions ++ [row]
        events := s.events ++ [context.event eventType row .candidate] } := by
  unfold record addRevision addEvent at h
  obtain ⟨_, -, h⟩ := lift_bind_eq_ok.mp h
  obtain ⟨hrevision, h⟩ := writeIf_bind_eq_ok.mp h
  obtain ⟨-, h⟩ := writeIf_bind_eq_ok.mp h
  obtain ⟨hresult, rfl⟩ := Prod.mk.inj h
  rw [Bool.and_eq_true] at hrevision
  exact ⟨hrevision.1, (Except.ok.inj hresult).symm, rfl⟩

theorem change_of_statements (h : statements db request s = (.ok result, s')) :
    Change s request.context request.call result s' := by
  unfold statements at h
  cases hcall : request.call with
  | create row =>
    simp only [hcall] at h
    split_ifs at h
    · cases h
    · obtain ⟨hfresh, rfl, rfl⟩ := record_ok h
      exact .recorded row .created hfresh nofun
  | revise row expectedRevision =>
    simp only [hcall] at h
    obtain ⟨head, -, h⟩ := query_bind_eq_ok.mp h
    obtain ⟨_, -, h⟩ := lift_bind_eq_ok.mp h
    obtain ⟨hfresh, rfl, rfl⟩ := record_ok h
    exact .recorded row .revised hfresh nofun
  | validate w l n id =>
    simp only [hcall] at h
    obtain ⟨row, hrow, h⟩ := query_bind_eq_ok.mp h
    rw [read_bind] at h
    cases hvalidation : s.validation? w row.id with
    | some earlier =>
      rw [hvalidation] at h
      obtain ⟨hresult, rfl⟩ := Prod.mk.inj h
      obtain rfl := Except.ok.inj hresult
      exact .repeated row earlier hrow hvalidation
    | none =>
      rw [hvalidation] at h
      unfold addValidation addEvent at h
      obtain ⟨-, h⟩ := writeIf_bind_eq_ok.mp h
      obtain ⟨-, h⟩ := writeIf_bind_eq_ok.mp h
      obtain ⟨hresult, rfl⟩ := Prod.mk.inj h
      obtain rfl := Except.ok.inj hresult
      exact .validated row hrow hvalidation
  | decide w l n id kind reason =>
    simp only [hcall] at h
    obtain ⟨row, hrow, h⟩ := query_bind_eq_ok.mp h
    rw [read_bind, read_bind] at h
    cases hdecision : s.decision? w row.id with
    | some earlier =>
      rw [hdecision] at h
      cases h
    | none =>
      rw [hdecision] at h
      dsimp only at h
      split_ifs at h with hconfirmed hblank
      · cases h
      · cases h
      · unfold addDecision addEvent at h
        obtain ⟨-, h⟩ := writeIf_bind_eq_ok.mp h
        obtain ⟨-, h⟩ := writeIf_bind_eq_ok.mp h
        obtain ⟨hresult, rfl⟩ := Prod.mk.inj h
        obtain rfl := Except.ok.inj hresult
        refine .decided row hrow hdecision fun hkind => ?_
        exact not_not.mp fun hnone => hconfirmed ⟨hkind, hnone⟩

/-- **Calls.**  A call does what it says, or raises and changes nothing. -/
theorem perform_cases (db : FormalizationDatabase) (request : FormalizationRequest)
    (s : FormalizationState) :
    (∃ result s', perform db request s = (.ok result, s')
        ∧ Change s request.context request.call result s')
      ∨ ∃ e, perform db request s = (.error e, s) := by
  cases hanswer : (perform db request s).1 with
  | ok result =>
    have hrun : perform db request s = (.ok result, (perform db request s).2) := Prod.ext hanswer rfl
    exact .inl ⟨result, _, hrun, change_of_statements (perform_ok_iff.mp hrun).1⟩
  | error e => exact .inr ⟨e, Prod.ext hanswer (perform_error hanswer)⟩

end Calls

/-! ### The tables -/

/-- Keys are unique, and facts are about stored revisions: a validation is the one that the code computes
    of its formula, and what is confirmed has passed. -/
structure WellFormed (s : FormalizationState) : Prop where
  ids : (s.revisions.map (·.id)).Nodup
  numbers : (s.revisions.map fun row => (row.workspaceId, row.logicalId, row.revision)).Nodup
  validations : ∀ v ∈ s.validations, ∃ row ∈ s.revisions, v.workspaceId = row.workspaceId
    ∧ v.toFormalizationValidation = validateRevision row.toFormalizationRevision
  decisions : ∀ d ∈ s.decisions, ∃ row ∈ s.revisions, d.workspaceId = row.workspaceId
    ∧ d.formalizationRevisionId = row.id ∧ d.hash = row.hash
    ∧ (d.kind = .confirmed → (s.validation? row.workspaceId row.id).any (·.success) = true)

theorem validateRevision_id (revision : FormalizationRevision) :
    (validateRevision revision).formalizationRevisionId = revision.id := rfl

section Lookups

variable {s : FormalizationState} {row : FormalizationRow} {w l : UUID} {n : ℕ}

/-- The current revision is a stored one, of this workspace. -/
theorem mem_of_current (h : s.current w l n = .ok row) : row ∈ s.revisions ∧ row.workspaceId = w := by
  unfold FormalizationState.current FormalizationState.head? at h
  split at h
  · cases h
  · rename_i head hhead
    split_ifs at h
    obtain rfl := Except.ok.inj h
    have hmem := List.argmax_mem hhead
    simp only [FormalizationState.history, List.mem_filter, decide_eq_true_eq] at hmem
    exact ⟨hmem.1, hmem.2.1⟩

/-- `get` finds a stored revision by its number. -/
theorem get_of_mem (hs : WellFormed s) (hrow : row ∈ s.revisions) :
    s.get row.workspaceId row.logicalId (some row.revision) = some (s.result row) := by
  have hmem : row ∈ s.history row.workspaceId row.logicalId := by
    simp [FormalizationState.history, hrow]
  unfold FormalizationState.get FormalizationState.revision?
  cases hfind : (s.history row.workspaceId row.logicalId).find? (·.revision = row.revision) with
  | none => simpa using List.find?_eq_none.mp hfind row hmem
  | some other =>
    have hother := List.mem_of_find?_eq_some hfind
    have hnumber : other.revision = row.revision := by simpa using List.find?_some hfind
    simp only [FormalizationState.history, List.mem_filter, decide_eq_true_eq] at hother
    have hsame : other = row := List.inj_on_of_nodup_map hs.numbers hother.1 hrow
      (by simp [hother.2.1, hother.2.2, hnumber])
    simp only [hfind, hsame, Option.map_some]

theorem id_ne_of_fresh (hfresh : s.freshRevision row = true) {other : FormalizationRow}
    (hother : other ∈ s.revisions) : other.id ≠ row.id := by
  have h := List.all_eq_true.mp hfresh other hother
  simp only [Bool.and_eq_true, decide_eq_true_eq] at h
  exact h.1.1

theorem number_ne_of_fresh (hfresh : s.freshRevision row = true) {other : FormalizationRow}
    (hother : other ∈ s.revisions) : (other.workspaceId, other.logicalId, other.revision)
      ≠ (row.workspaceId, row.logicalId, row.revision) := by
  have h := List.all_eq_true.mp hfresh other hother
  simp only [Bool.and_eq_true, decide_eq_true_eq] at h
  exact h.1.2

/-- There are no facts about a revision that is new. -/
theorem facts_of_fresh (hs : WellFormed s) (hfresh : s.freshRevision row = true) (w : UUID) :
    s.validation? w row.id = none ∧ s.decision? w row.id = none := by
  constructor
  · apply List.find?_eq_none.mpr
    intro v hv h
    obtain ⟨other, hother, -, hvalue⟩ := hs.validations v hv
    have hid : other.id = row.id := by
      rw [← validateRevision_id, ← hvalue]
      exact (of_decide_eq_true h).2
    exact id_ne_of_fresh hfresh hother hid
  · apply List.find?_eq_none.mpr
    intro d hd h
    obtain ⟨other, hother, -, hrevision, -⟩ := hs.decisions d hd
    exact id_ne_of_fresh hfresh hother (hrevision.symm.trans (of_decide_eq_true h).2)

/-- The validation that is found is the one of the revision. -/
theorem validation_of_found (hs : WellFormed s) (hrow : row ∈ s.revisions)
    {v : FormalizationValidationRow} (h : s.validation? row.workspaceId row.id = some v) :
    v.toFormalizationValidation = validateRevision row.toFormalizationRevision := by
  obtain ⟨other, hother, -, hvalue⟩ := hs.validations v (List.mem_of_find?_eq_some h)
  have hfound := List.find?_some h
  have hid := (of_decide_eq_true hfound).2
  rw [hvalue, validateRevision_id] at hid
  rw [hvalue, List.inj_on_of_nodup_map hs.ids hother hrow hid]

theorem decision_of_found (hs : WellFormed s) (hrow : row ∈ s.revisions)
    {d : FormalizationDecision} (h : s.decision? row.workspaceId row.id = some d) :
    d.hash = row.hash
      ∧ (d.kind = .confirmed → (s.validation? row.workspaceId row.id).any (·.success) = true) := by
  obtain ⟨other, hother, -, hrevision, hhash, hconfirmed⟩ :=
    hs.decisions d (List.mem_of_find?_eq_some h)
  have hfound := List.find?_some h
  have hid := (of_decide_eq_true hfound).2
  obtain rfl := List.inj_on_of_nodup_map hs.ids hother hrow (hrevision.symm.trans hid)
  exact ⟨hhash, hconfirmed⟩

end Lookups

/-! ### The status -/

section Status

variable {v : Option FormalizationValidationRow} {d : Option FormalizationDecision}

theorem deriveStatus_eq_validated : deriveStatus v d = .validated
    ↔ (∃ x, v = some x ∧ x.success = true) ∧ ∃ y, d = some y ∧ y.kind = .confirmed := by
  unfold deriveStatus
  cases v with
  | none =>
    cases d with
    | none => simp
    | some y => cases hy : y.kind <;> simp [hy]
  | some x =>
    cases d with
    | none => cases hx : x.success <;> simp [hx]
    | some y => cases hx : x.success <;> cases hy : y.kind <;> simp [hx, hy]

/-- The status is rejected exactly when one of the two facts rejects. -/
theorem deriveStatus_eq_rejected : deriveStatus v d = .rejected
    ↔ (∃ x, v = some x ∧ x.success = false) ∨ ∃ y, d = some y ∧ y.kind = .rejected := by
  unfold deriveStatus
  cases v with
  | none =>
    cases d with
    | none => simp
    | some y => cases hy : y.kind <;> simp [hy]
  | some x =>
    cases d with
    | none => cases hx : x.success <;> simp [hx]
    | some y => cases hx : x.success <;> cases hy : y.kind <;> simp [hx, hy]

/-- A validation alone gives the status, unless it passes what a decision has rejected. -/
theorem deriveStatus_eq_iff {x : FormalizationValidationRow}
    (hconfirmed : ∀ y, d = some y → y.kind ≠ .confirmed) :
    deriveStatus (some x) d = deriveStatus (some x) none
      ↔ ¬ (x.success = true ∧ ∃ y, d = some y ∧ y.kind = .rejected) := by
  unfold deriveStatus
  cases d with
  | none => simp
  | some y =>
    have hkind : y.kind = .rejected := by
      have hne := hconfirmed y rfl
      revert hne
      cases y.kind <;> simp
    cases hx : x.success <;> simp [hx, hkind]

/-- A settled status stays when facts are added. -/
theorem deriveStatus_settled {v' : Option FormalizationValidationRow} {d' : Option FormalizationDecision}
    (hv : ∀ x, v = some x → v' = some x) (hd : ∀ y, d = some y → d' = some y)
    (hsettled : deriveStatus v d ≠ .candidate) : deriveStatus v' d' = deriveStatus v d := by
  cases hstatus : deriveStatus v d with
  | candidate => exact absurd hstatus hsettled
  | validated =>
    obtain ⟨⟨x, hx, hpassed⟩, y, hy, hkind⟩ := deriveStatus_eq_validated.mp hstatus
    exact deriveStatus_eq_validated.mpr ⟨⟨x, hv x hx, hpassed⟩, y, hd y hy, hkind⟩
  | rejected =>
    apply deriveStatus_eq_rejected.mpr
    rcases deriveStatus_eq_rejected.mp hstatus with ⟨x, hx, hfailed⟩ | ⟨y, hy, hkind⟩
    · exact .inl ⟨x, hv x hx, hfailed⟩
    · exact .inr ⟨y, hd y hy, hkind⟩

end Status

/-! ### Steps -/

section Steps

variable {s s' : FormalizationState} {context : FormalizationContext} {call : FormalizationCall}
  {result : FormalizationResult}

/-- Facts that are there stay. -/
theorem Change.validation_kept (h : Change s context call result s') {w id : UUID}
    {v : FormalizationValidationRow} (hv : s.validation? w id = some v) :
    s'.validation? w id = some v := by
  cases h with
  | recorded row eventType hfresh hcall => exact hv
  | validated row hrow hnone =>
    show List.find? _ (s.validations ++ _) = some v
    rw [List.find?_append]
    exact Option.or_of_isSome (Option.isSome_of_mem hv) ▸ hv
  | repeated row earlier hrow hearlier => exact hv
  | decided row hrow hnone hconfirmed => exact hv

theorem Change.decision_kept (h : Change s context call result s') {w id : UUID}
    {d : FormalizationDecision} (hd : s.decision? w id = some d) : s'.decision? w id = some d := by
  cases h with
  | recorded row eventType hfresh hcall => exact hd
  | validated row hrow hnone => exact hd
  | repeated row earlier hrow hearlier => exact hd
  | decided row hrow hnone hconfirmed =>
    show List.find? _ (s.decisions ++ _) = some d
    rw [List.find?_append]
    exact Option.or_of_isSome (Option.isSome_of_mem hd) ▸ hd

theorem Change.revision_kept (h : Change s context call result s') {row : FormalizationRow}
    (hrow : row ∈ s.revisions) : row ∈ s'.revisions := by
  cases h with
  | recorded new eventType hfresh hcall => exact List.mem_append_left _ hrow
  | validated new hnew hnone => exact hrow
  | repeated new earlier hnew hearlier => exact hrow
  | decided new hnew hnone hconfirmed => exact hrow

/-- **Settled.**  A call does not change a status that is validated or rejected. -/
theorem Change.settled (h : Change s context call result s') {row : FormalizationRow}
    (hsettled : (s.result row).status ≠ .candidate) : (s'.result row).status = (s.result row).status :=
  deriveStatus_settled (fun _ => h.validation_kept) (fun _ => h.decision_kept) hsettled

/-- A new validation is found, when there was none. -/
theorem validation?_append {v : FormalizationValidationRow} {w id : UUID}
    (hnone : s.validation? w id = none) (hworkspace : v.workspaceId = w)
    (hrevision : v.formalizationRevisionId = id) {events : List FormalizationEvent} :
    ({ s with validations := s.validations ++ [v], events } : FormalizationState).validation? w id
      = some v := by
  show List.find? _ (s.validations ++ [v]) = some v
  rw [List.find?_append, show List.find? _ s.validations = none from hnone]
  simp [hworkspace, hrevision]

theorem decision?_append {d : FormalizationDecision} {w id : UUID} (hnone : s.decision? w id = none)
    (hworkspace : d.workspaceId = w) (hrevision : d.formalizationRevisionId = id)
    {events : List FormalizationEvent} :
    ({ s with decisions := s.decisions ++ [d], events } : FormalizationState).decision? w id
      = some d := by
  show List.find? _ (s.decisions ++ [d]) = some d
  rw [List.find?_append, show List.find? _ s.decisions = none from hnone]
  simp [hworkspace, hrevision]

/-- **Tables.**  A call keeps them well formed. -/
theorem Change.wellFormed (h : Change s context call result s') (hs : WellFormed s) :
    WellFormed s' := by
  have hpassed {w id : UUID} (hany : (s.validation? w id).any (·.success) = true) :
      (s'.validation? w id).any (·.success) = true := by
    obtain ⟨v, hv, hsuccess⟩ := (Option.any_eq_true _ _).mp hany
    exact (Option.any_eq_true _ _).mpr ⟨v, h.validation_kept hv, hsuccess⟩
  have hdecisions : ∀ d ∈ s.decisions, ∃ row ∈ s'.revisions, d.workspaceId = row.workspaceId
      ∧ d.formalizationRevisionId = row.id ∧ d.hash = row.hash
      ∧ (d.kind = .confirmed → (s'.validation? row.workspaceId row.id).any (·.success) = true) := by
    intro d hd
    obtain ⟨row, hrow, hworkspace, hrevision, hhash, hconfirmed⟩ := hs.decisions d hd
    exact ⟨row, h.revision_kept hrow, hworkspace, hrevision, hhash, fun hkind => hpassed (hconfirmed hkind)⟩
  have hvalidations : ∀ v ∈ s.validations, ∃ row ∈ s'.revisions, v.workspaceId = row.workspaceId
      ∧ v.toFormalizationValidation = validateRevision row.toFormalizationRevision := by
    intro v hv
    obtain ⟨row, hrow, hvalue⟩ := hs.validations v hv
    exact ⟨row, h.revision_kept hrow, hvalue⟩
  cases h with
  | recorded row eventType hfresh hcall =>
    refine ⟨?_, ?_, hvalidations, hdecisions⟩
    · rw [List.map_append, List.nodup_append_comm]
      refine List.nodup_cons.mpr ⟨fun hmem => ?_, hs.ids⟩
      obtain ⟨other, hother, hid⟩ := List.mem_map.mp hmem
      exact id_ne_of_fresh hfresh hother hid
    · rw [List.map_append, List.nodup_append_comm]
      refine List.nodup_cons.mpr ⟨fun hmem => ?_, hs.numbers⟩
      obtain ⟨other, hother, hnumber⟩ := List.mem_map.mp hmem
      exact number_ne_of_fresh hfresh hother hnumber
  | validated row hrow hnone =>
    obtain ⟨hmem, rfl⟩ := mem_of_current hrow
    refine ⟨hs.ids, hs.numbers, fun v hv => ?_, hdecisions⟩
    rcases List.mem_append.mp hv with hold | hnew
    · exact hvalidations v hold
    · rw [List.mem_singleton.mp hnew]
      exact ⟨row, hmem, rfl, rfl⟩
  | repeated row earlier hrow hearlier => exact hs
  | decided row hrow hnone hconfirmed =>
    obtain ⟨hmem, rfl⟩ := mem_of_current hrow
    refine ⟨hs.ids, hs.numbers, hvalidations, fun d hd => ?_⟩
    rcases List.mem_append.mp hd with hold | hnew
    · exact hdecisions d hold
    · rw [List.mem_singleton.mp hnew]
      exact ⟨row, hmem, rfl, rfl, rfl, hconfirmed⟩

theorem wellFormed_perform (db : FormalizationDatabase) (request : FormalizationRequest)
    (hs : WellFormed s) : WellFormed (perform db request s).2 := by
  rcases perform_cases db request s with ⟨result, s', hrun, hchange⟩ | ⟨e, hrun⟩
  · rw [hrun]
    exact hchange.wellFormed hs
  · rw [hrun]
    exact hs

end Steps

/-! ### Coherent calls -/

/-- The status that a successful call returns, and the one in every event that it emits, is the status
    that `get` computes for the revision afterwards. -/
def Coherent (db : FormalizationDatabase) (s : FormalizationState) (request : FormalizationRequest) :
    Prop :=
  ∀ result s', perform db request s = (.ok result, s') →
    (∃ r, s'.get result.revision.workspaceId result.revision.logicalId (some result.revision.revision)
        = some r ∧ r.status = result.status)
      ∧ ∃ events, s'.events = s.events ++ events ∧ ∀ e ∈ events,
        e.formalizationRevisionId = result.revision.id ∧ e.validationStatus = result.status

/-- The state with the first validation of a revision. -/
def FormalizationState.withValidation (s : FormalizationState) (context : FormalizationContext)
    (id : UUID) (row : FormalizationRow) : FormalizationState :=
  { s with
    validations := s.validations ++ [context.validation id row]
    events := s.events ++ [context.event .validationRecorded row
      (deriveStatus (some (context.validation id row)) none)] }

/-- A first validation that passes, of a revision that has been rejected already, and that the database
    takes. -/
def Late (db : FormalizationDatabase) (s : FormalizationState) (request : FormalizationRequest) : Prop :=
  ∃ w l n id row, request.call = .validate w l n id ∧ s.current w l n = .ok row
    ∧ s.validation? w row.id = none
    ∧ (∃ d, s.decision? w row.id = some d ∧ d.kind = .rejected)
    ∧ (validateRevision row.toFormalizationRevision).success = true
    ∧ (s.freshValidation (request.context.validation id row)
      && db.acceptsValidation (request.context.validation id row)) = true
    ∧ (∀ status, status = deriveStatus (some (request.context.validation id row)) none →
      (s.freshEvent (request.context.event .validationRecorded row status)
        && db.acceptsEvent (request.context.event .validationRecorded row status)) = true)
    ∧ db.acceptsCommit (s.withValidation request.context id row) = true

section Coherent

variable {db : FormalizationDatabase} {s s' : FormalizationState} {request : FormalizationRequest}
  {context : FormalizationContext} {call : FormalizationCall} {result : FormalizationResult}

/-- A call returns the status of its revision, but for a first validation after a rejection. -/
theorem Change.status (h : Change s context call result s') (hs : WellFormed s)
    (hlate : ∀ w l n id row, call = .validate w l n id → s.current w l n = .ok row →
      s.validation? w row.id = none → ¬ ((validateRevision row.toFormalizationRevision).success = true
        ∧ ∃ d, s.decision? w row.id = some d ∧ d.kind = .rejected)) :
    (s'.result result.revision).status = result.status := by
  cases h with
  | recorded row eventType hfresh hcall =>
    obtain ⟨hvalidation, hdecision⟩ := facts_of_fresh hs hfresh row.workspaceId
    show deriveStatus (s.validation? _ _) (s.decision? _ _) = _
    rw [hvalidation, hdecision]
    rfl
  | @validated w l id n row hrow hnone =>
    obtain ⟨hmem, rfl⟩ := mem_of_current hrow
    show deriveStatus (FormalizationState.validation? _ _ _) (s.decision? row.workspaceId row.id) = _
    rw [validation?_append hnone rfl rfl]
    refine (deriveStatus_eq_iff fun d hd hkind => ?_).mpr (hlate _ l n id row rfl hrow hnone)
    -- What is confirmed has been validated before.
    have hpassed := (decision_of_found hs hmem hd).2 hkind
    rw [hnone] at hpassed
    cases hpassed
  | repeated row earlier hrow hearlier => rfl
  | decided row hrow hnone hconfirmed =>
    obtain ⟨hmem, rfl⟩ := mem_of_current hrow
    show deriveStatus (s.validation? row.workspaceId row.id) (FormalizationState.decision? _ _ _) = _
    rw [decision?_append hnone rfl rfl]

theorem Change.revision_mem (h : Change s context call result s') : result.revision ∈ s'.revisions := by
  cases h with
  | recorded row eventType hfresh hcall => exact List.mem_append_right _ List.mem_cons_self
  | validated row hrow hnone => exact (mem_of_current hrow).1
  | repeated row earlier hrow hearlier => exact (mem_of_current hrow).1
  | decided row hrow hnone hconfirmed => exact (mem_of_current hrow).1

/-- The events of a call carry the status that it returns. -/
theorem Change.events (h : Change s context call result s') :
    ∃ events, s'.events = s.events ++ events ∧ ∀ e ∈ events,
      e.formalizationRevisionId = result.revision.id ∧ e.validationStatus = result.status := by
  have hone {e : FormalizationEvent} (hevents : s'.events = s.events ++ [e])
      (hrevision : e.formalizationRevisionId = result.revision.id)
      (hstatus : e.validationStatus = result.status) :
      ∃ events, s'.events = s.events ++ events ∧ ∀ e ∈ events,
        e.formalizationRevisionId = result.revision.id ∧ e.validationStatus = result.status := by
    refine ⟨[e], hevents, fun e' he' => ?_⟩
    rw [List.mem_singleton.mp he']
    exact ⟨hrevision, hstatus⟩
  cases h with
  | recorded row eventType hfresh hcall => exact hone rfl rfl rfl
  | validated row hrow hnone => exact hone rfl rfl rfl
  | repeated row earlier hrow hearlier =>
    exact ⟨[], (List.append_nil _).symm, List.forall_mem_nil _⟩
  | decided row hrow hnone hconfirmed => exact hone rfl rfl rfl

/-- A late validation is recorded as if there had been no decision. -/
theorem perform_late {w l id : UUID} {n : ℕ} {row : FormalizationRow}
    (hcall : request.call = .validate w l n id) (hrow : s.current w l n = .ok row)
    (hnone : s.validation? w row.id = none)
    (hvalidation : (s.freshValidation (request.context.validation id row)
      && db.acceptsValidation (request.context.validation id row)) = true)
    (hevent : ∀ status, status = deriveStatus (some (request.context.validation id row)) none →
      (s.freshEvent (request.context.event .validationRecorded row status)
        && db.acceptsEvent (request.context.event .validationRecorded row status)) = true)
    (hcommit : db.acceptsCommit (s.withValidation request.context id row) = true) :
    perform db request s = (.ok ⟨row, some (request.context.validation id row), none,
        deriveStatus (some (request.context.validation id row)) none⟩,
      s.withValidation request.context id row) := by
  refine perform_ok_iff.mpr ⟨?_, hcommit⟩
  unfold statements
  simp only [hcall]
  refine query_bind_eq_ok.mpr ⟨row, hrow, ?_⟩
  rw [read_bind, hnone]
  unfold addValidation addEvent
  exact writeIf_bind_eq_ok.mpr ⟨hvalidation, writeIf_bind_eq_ok.mpr ⟨hevent _ rfl, rfl⟩⟩

/-- **Coherence.**  A call is coherent exactly when it is not a late validation. -/
theorem coherent_iff (hs : WellFormed s) : Coherent db s request ↔ ¬ Late db s request := by
  constructor
  · rintro hcoherent ⟨w, l, n, id, row, hcall, hrow, hnone, ⟨d, hd, hkind⟩, hpassed, hvalidation,
      hevent, hcommit⟩
    have hrun := perform_late hcall hrow hnone hvalidation hevent hcommit
    obtain ⟨⟨r, hr, hstatus⟩, -⟩ := hcoherent _ _ hrun
    have hchange : Change s request.context request.call _ _ :=
      change_of_statements (perform_ok_iff.mp hrun).1
    obtain ⟨hmem, rfl⟩ := mem_of_current hrow
    rw [get_of_mem (hchange.wellFormed hs) hchange.revision_mem] at hr
    obtain rfl := Option.some.inj hr
    -- `get` sees the decision, the call did not.
    have hget : ((s.withValidation request.context id row).result row).status = .rejected :=
      deriveStatus_eq_rejected.mpr (.inr ⟨d, hchange.decision_kept hd, hkind⟩)
    have hcalled : deriveStatus (some (request.context.validation id row)) none = .candidate := by
      have hsuccess : (request.context.validation id row).success = true := hpassed
      simp [deriveStatus, hsuccess]
    rw [hget, hcalled] at hstatus
    cases hstatus
  · intro hlate result s' hrun
    obtain ⟨hstatements, hcommit⟩ := perform_ok_iff.mp hrun
    have hchange := change_of_statements hstatements
    refine ⟨⟨_, get_of_mem (hchange.wellFormed hs) hchange.revision_mem, hchange.status hs ?_⟩,
      hchange.events⟩
    rintro w l n id row hcall hrow hnone ⟨hpassed, hrejected⟩
    unfold statements at hstatements
    simp only [hcall] at hstatements
    obtain ⟨row', hrow', hrest⟩ := query_bind_eq_ok.mp hstatements
    obtain rfl := Except.ok.inj (hrow.symm.trans hrow')
    rw [read_bind, hnone] at hrest
    unfold addValidation addEvent at hrest
    obtain ⟨hvalidation, hrest⟩ := writeIf_bind_eq_ok.mp hrest
    obtain ⟨hevent, hrest⟩ := writeIf_bind_eq_ok.mp hrest
    obtain ⟨-, rfl⟩ := Prod.mk.inj hrest
    refine hlate ⟨w, l, n, id, row, hcall, hrow, hnone, hrejected, hpassed, hvalidation, ?_, hcommit⟩
    rintro status rfl
    exact hevent

end Coherent

/-! ### Runs -/

/-- What a VALIDATED revision has: its formula has passed, and the decision on it is a confirmation. -/
structure Confirmed (s : FormalizationState) (row : FormalizationRow) : Prop where
  passed : (validateRevision row.toFormalizationRevision).success = true
  validation : ∃ v, s.validation? row.workspaceId row.id = some v
    ∧ v.toFormalizationValidation = validateRevision row.toFormalizationRevision
  decision : ∃ d, s.decision? row.workspaceId row.id = some d ∧ d.kind = .confirmed
    ∧ d.hash = row.hash

theorem confirmed_of_validated {s : FormalizationState} {row : FormalizationRow} (hs : WellFormed s)
    (hrow : row ∈ s.revisions) (h : (s.result row).status = .validated) : Confirmed s row := by
  obtain ⟨⟨v, hv, hsuccess⟩, d, hd, hkind⟩ := deriveStatus_eq_validated.mp h
  have hvalue := validation_of_found hs hrow hv
  exact ⟨hvalue ▸ hsuccess, ⟨v, hv, hvalue⟩, d, hd, hkind, (decision_of_found hs hrow hd).1⟩

/-- Revisions stay, and so does what is settled. -/
def Kept (s s' : FormalizationState) : Prop :=
  ∀ row ∈ s.revisions, row ∈ s'.revisions
    ∧ ((s.result row).status ≠ .candidate → (s'.result row).status = (s.result row).status)

theorem Kept.refl (s : FormalizationState) : Kept s s := fun _ hrow => ⟨hrow, fun _ => rfl⟩

theorem Kept.trans {s t u : FormalizationState} (hst : Kept s t) (htu : Kept t u) : Kept s u := by
  intro row hrow
  obtain ⟨hmid, hfirst⟩ := hst row hrow
  obtain ⟨hend, hsecond⟩ := htu row hmid
  refine ⟨hend, fun hsettled => ?_⟩
  have hsame := hfirst hsettled
  rw [← hsame] at hsettled
  rw [hsecond hsettled, hsame]

theorem kept_perform (db : FormalizationDatabase) (s : FormalizationState)
    (request : FormalizationRequest) : Kept s (perform db request s).2 := by
  rcases perform_cases db request s with ⟨result, s', hrun, hchange⟩ | ⟨e, hrun⟩
  · rw [hrun]
    exact fun row hrow => ⟨hchange.revision_kept hrow, hchange.settled⟩
  · rw [hrun]
    exact Kept.refl s

theorem wellFormed_empty : WellFormed .empty :=
  ⟨List.nodup_nil, List.nodup_nil, List.forall_mem_nil _, List.forall_mem_nil _⟩

/-- **Lifecycles.**  In every run a settled status stays and a validated revision is confirmed.  The calls
    of the run are coherent exactly when none of them is a late validation. -/
theorem lifecycle_coherent_iff (db : FormalizationDatabase) (requests : List FormalizationRequest) :
    (∀ earlier middle later, requests = earlier ++ middle ++ later →
        Kept (after (perform db) .empty earlier) (after (perform db) .empty (earlier ++ middle)))
      ∧ (∀ earlier later, requests = earlier ++ later →
        ∀ row ∈ (after (perform db) .empty earlier).revisions,
          ((after (perform db) .empty earlier).result row).status = .validated →
            Confirmed (after (perform db) .empty earlier) row)
      ∧ (Along (perform db) (Coherent db) .empty requests
        ↔ Along (perform db) (fun s request => ¬ Late db s request) .empty requests) := by
  have hwellFormed (calls : List FormalizationRequest) :
      WellFormed (after (perform db) .empty calls) :=
    after_invariant (P := fun _ _ => True) (fun s i hs _ => wellFormed_perform db i hs)
      wellFormed_empty (along_of_forall (fun _ _ => trivial) _ _)
  refine ⟨?_, fun earlier later _ row hrow h => confirmed_of_validated (hwellFormed earlier) hrow h, ?_⟩
  · exact (forall_middle_iff_along Kept.refl fun _ _ _ => Kept.trans).mpr
      (along_of_forall (kept_perform db) _ _)
  · exact along_congr_of_invariant (fun s i hs => wellFormed_perform db i hs)
      (fun s i hs => coherent_iff hs) wellFormed_empty _

/-! ### A late validation -/

def unlimited : FormalizationDatabase where
  acceptsRevision _ := true
  acceptsValidation _ := true
  acceptsDecision _ := true
  acceptsEvent _ := true
  acceptsCommit _ := true

/-- A proposition, to be formalized. -/
def sampleSource : ReasoningArtifact :=
  let fields := { Artifacts.sampleFields 1 with payload := ⟨.proposition, []⟩ }
  { toArtifactFields := fields
    contentHash := Marl.sha256Hash (utf8 fields.hashPreimage.canonical)
    valid := rfl
    hashed := Marl.canonicalHash_eq_ok.mpr ⟨Artifacts.encodable_hashPreimage (by
      have hprint : Json.isPrintable 1 = true ∧ Json.isPrintable 0 = true := by decide
      exact ⟨rfl, rfl, rfl, hprint.1, hprint.1, hprint.2⟩), rfl⟩
    status := .active
    updatedAt := noon 0 }

/-- The formula `true`. -/
def sampleRow : FormalizationRow where
  toFormalizationRevision := .ofAst (sampleId 2) (.boolean true) []
  logicalId := sampleId 2
  revision := 1
  supersedesId := none
  workspaceId := sampleSource.workspaceId
  sessionId := sampleSource.sessionId
  sourceArtifactId := sampleSource.id
  sourceArtifactLogicalId := sampleSource.logicalId
  sourceArtifactVersion := sampleSource.version
  premiseArtifactIds := []
  createdAt := noon 0
  actorClass := .human
  actorId := sampleId 0
  correlationId := sampleId 0
  revision_shape := by decide
  unique_premises := List.nodup_nil

def sampleRequest (digit : Fin 10) (call : FormalizationCall) : FormalizationRequest where
  call
  context := ⟨sampleId 0, sampleId 0, noon 0, sampleId digit⟩
  artifacts := [sampleSource]

/-- Created and rejected. -/
def sampleRequests : List FormalizationRequest :=
  [sampleRequest 3 (.create sampleRow),
    sampleRequest 4 (.decide sampleRow.workspaceId sampleRow.logicalId 1 (sampleId 4) .rejected "r")]

/-- A validation after a rejection answers that the revision is a candidate. -/
theorem lifecycle_not_coherent : ¬ ∀ (db : FormalizationDatabase) (requests : List FormalizationRequest),
    Along (perform db) (Coherent db) .empty requests := by
  intro h
  let late := sampleRequest 5 (.validate sampleRow.workspaceId sampleRow.logicalId 1 (sampleId 5))
  have hrun := along_iff_forall.mp (h unlimited (sampleRequests ++ [late])) sampleRequests late [] rfl
  have hwellFormed : WellFormed (after (perform unlimited) .empty sampleRequests) :=
    after_invariant (P := fun _ _ => True) (fun s i hs _ => wellFormed_perform unlimited i hs)
      wellFormed_empty (along_of_forall (fun _ _ => trivial) _ _)
  refine (coherent_iff hwellFormed).mp hrun
    ⟨_, _, _, _, sampleRow, rfl, rfl, rfl, ⟨_, rfl, rfl⟩, by decide, by decide, ?_, rfl⟩
  rintro status rfl
  decide

end Agora.Formalization
