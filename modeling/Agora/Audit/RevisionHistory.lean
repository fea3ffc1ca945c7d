import Agora.Artifacts.Writes
import Agora.Audit.Anchor
import Agora.Lib.Agree
import Agora.Lib.HexText
import Agora.Turns.Revision

namespace Agora.Audit

open Artifacts (ArtifactCall ArtifactWrite ReasoningArtifact ReasoningDatabase ReasoningState
  committedType revisedType withdrawnType get? execCall writes)
open Ledger (ActorClass LedgerEvent LedgerState NonBlank)

/-!
# The history of an artifact

The history lists the events that name one row of the artifacts.  A revision is another row, so the
history is the whole one exactly when there has been no revision, and all writes are among the
events that are read (`wholeHistory_iff`).
-/

/-! ### Values of a payload -/

/-- Decimal digits, with single underscores between them. -/
def decimalGroups (cs : List Char) : Option ℕ :=
  let digits := cs.filter (· ≠ '_')
  if ((cs.splitOn '_').all fun g => !g.isEmpty && g.all Char.isDigit)
      ∧ digits.length ≤ Json.maxStrDigits then
    some (digits.foldl (fun n c => n * 10 + (c.toNat - '0'.toNat)) 0)
  else none

/-- `int(text)`, where it does not raise. -/
def intBase10 (text : List Char) : Option ℤ :=
  match ((text.map asciiChar).dropWhile isAsciiSpace).rdropWhile isAsciiSpace with
  | '-' :: rest => (decimalGroups rest).map fun n => -Int.ofNat n
  | '+' :: rest => (decimalGroups rest).map Int.ofNat
  | rest => (decimalGroups rest).map Int.ofNat

/-- `int(value)`; there are no floats in a payload. -/
def intOf : Json → Py ℤ
  | .int n => .ok n
  | .bool b => .ok (if b then 1 else 0)
  | .str s =>
    match (PyStr.chars? s).bind intBase10 with
    | some n => .ok n
    | none => .error (.valueError "invalid literal for int() with base 10")
  | .null | .float _ _ | .arr _ | .obj _ =>
    .error (.typeError "int() argument must be a string or a real number")

/-- `UUID(str(value))`; of the texts of other values, only those of integers can be read. -/
def uuidOf : Json → Py UUID
  | .str s =>
    match PyStr.chars? s with
    | some text => UUID.ofHexText text
    | none => .error (.valueError "badly formed hexadecimal UUID string")
  | .int n => UUID.ofHexText (Json.intText n)
  | .null | .bool _ | .float _ _ | .arr _ | .obj _ =>
    .error (.valueError "badly formed hexadecimal UUID string")

/-- `_payload_uuid`. -/
def payloadUuid (event : LedgerEvent) (key : String) : Py (Option UUID) :=
  match get? event.payload.entries key with
  | none => .ok none
  | some value => (uuidOf value).map some

/-- `_payload_uuids`: what is empty or false has none, and a string is read by its characters. -/
def payloadUuids (event : LedgerEvent) (key : String) : Py (List UUID) :=
  match get? event.payload.entries key with
  | none | some .null | some (.bool false) => .ok []
  | some (.int n) =>
    if n = 0 then .ok [] else .error (.typeError "'int' object is not iterable")
  | some (.arr values) => values.mapM uuidOf
  | some (.obj entries) => entries.mapM fun e => uuidOf (.str e.1)
  | some (.str s) =>
    if s = [] then .ok [] else .error (.valueError "badly formed hexadecimal UUID string")
  | some (.bool true) | some (.float _ _) => .error (.typeError "object is not iterable")

/-! ### The history -/

structure ArtifactRevision where
  version : ℤ
  eventId : UUID
  ledgerSeq : ℕ
  round : ℕ
  eventType : NonBlank
  actorClass : ActorClass
  actorId : UUID
  recordedAt : Datetime
  supersedesId : Option UUID := none
  warrantArtifactIds : List UUID := []
  positive_version : 1 ≤ version

structure ArtifactRevisionHistory where
  artifactId : UUID
  sessionId : UUID
  revisions : List ArtifactRevision

def artifactEventTypes : List NonBlank := [committedType, revisedType, withdrawnType]

/-- `event.payload.get("artifact_id") == str(artifact_id)`. -/
def isAbout (event : LedgerEvent) (artifactId : UUID) : Bool :=
  match event.payload.entries.lookup (.ofString "artifact_id") with
  | some (.str s) => s = .ofString artifactId.text
  | _ => false

/-- `_artifact_write_events`. -/
def artifactWriteEvents (events : List LedgerEvent) (artifactId : UUID) : List LedgerEvent :=
  events.filter fun event => event.eventType ∈ artifactEventTypes && isAbout event artifactId

/-- The entry of an event. -/
def artifactRevision (event : LedgerEvent) : Py ArtifactRevision := do
  let version ← match event.payload.entries.lookup (.ofString "version") with
    | some value => intOf value
    | none => .ok 1
  let supersedesId ← payloadUuid event "supersedes_id"
  let warrantArtifactIds ← payloadUuids event "warrant_artifact_ids"
  if h : 1 ≤ version then
    .ok
      { version
        eventId := event.id
        ledgerSeq := event.ledgerSeq
        round := event.round
        eventType := event.eventType
        actorClass := event.actorClass
        actorId := event.actorId
        recordedAt := event.recordedAt
        supersedesId
        warrantArtifactIds
        positive_version := h }
  else .error (.valueError "Input should be greater than or equal to 1")

/-- `artifact_revision_history`. -/
def artifactRevisionHistory (ledger : LedgerState) (workspaceId sessionId artifactId : UUID) :
    Py ArtifactRevisionHistory := do
  let events ← ledger.readFrom workspaceId sessionId 1 maxEventScan
  let revisions ← (artifactWriteEvents events artifactId).mapM artifactRevision
  pure { artifactId, sessionId, revisions }

/-! ### The events of a run -/

section Events

variable {a : ReasoningArtifact} {context : Artifacts.ArtifactEventContext} {eventType : NonBlank}
  {detail : List (PyStr × Json)} {e : LedgerEvent}

/-- What the event of an artifact has under a key that is not about its metadata. -/
theorem lookup_artifactEvent
    (h : Artifacts.artifactEvent a context eventType (a.eventEntries ++ detail)
      = .ok e.toLedgerAppend)
    {key : String} (hkey : key ∉ ["attribution", "evidence_disposition"]) :
    e.payload.entries.lookup (.ofString key)
      = (a.eventEntries ++ detail).lookup (.ofString key) := by
  obtain ⟨-, hentries⟩ := Artifacts.artifactEvent_ok h
  have hperm := sortByKey_perm (a.eventEntries ++ detail ++ a.metadataEntry "attribution"
    ++ a.metadataEntry "evidence_disposition")
  rw [← hentries] at hperm
  have hnodup := Artifacts.nodup_keys e.payload
  have hother {key' : String} (hne : key ≠ key') :
      (a.metadataEntry key').lookup (.ofString key) = none := by
    rw [List.lookup_eq_none_iff]
    intro p hp
    obtain ⟨value, -, rfl⟩ := Option.map_eq_some_iff.mp (Option.mem_toList.mp hp)
    simpa using fun heq => hne (PyStr.ofString_injective heq)
  rw [lookup_eq_of_perm hperm fun k v v' hv hv' => ?_, List.lookup_append, List.lookup_append,
    hother (by rintro rfl; simp at hkey), hother (by rintro rfl; simp at hkey), Option.or_none,
    Option.or_none]
  exact congrArg Prod.snd (List.inj_on_of_nodup_map hnodup hv hv' rfl)

theorem get?_eq_of_lookup {entries entries' : List (PyStr × Json)} {key : String}
    (h : entries.lookup (.ofString key) = entries'.lookup (.ofString key)) :
    get? entries key = get? entries' key := by
  unfold get?
  rw [h]

theorem uuidOf_text (id : UUID) : uuidOf (.text id.text) = .ok id := by
  show (match PyStr.chars? (PyStr.ofChars id.text.toList) with
    | some text => UUID.ofHexText text
    | none => _) = _
  rw [PyStr.chars?_ofChars]
  exact UUID.ofHexText_text id

theorem mapM_uuidOf (ids : List UUID) :
    (ids.map fun id => Json.text id.text).mapM uuidOf = .ok ids := by
  apply Except.mapM_eq_ok_iff.mpr
  rw [List.forall₂_map_left_iff]
  exact List.forall₂_same.mpr fun id _ => uuidOf_text id

/-- The event names the artifact that it is about. -/
theorem isAbout_iff {id : UUID} : isAbout e id = true ↔ Artifacts.Names e.toLedgerAppend id := by
  unfold isAbout Artifacts.Names
  constructor
  · intro h
    split at h
    · rename_i s hlookup
      obtain rfl := of_decide_eq_true h
      obtain ⟨before, after, heq, -⟩ := List.lookup_eq_some_iff.mp hlookup
      rw [heq]
      exact List.mem_append_right _ List.mem_cons_self
    · cases h
  · intro h
    have hlookup : e.payload.entries.lookup (.ofString "artifact_id") = some (.text id.text) := by
      cases hfound : e.payload.entries.lookup (.ofString "artifact_id") with
      | none =>
        have habsent := List.lookup_eq_none_iff.mp hfound _ h
        simp at habsent
      | some value =>
        obtain ⟨before, after, heq, -⟩ := List.lookup_eq_some_iff.mp hfound
        have hmem : (PyStr.ofString "artifact_id", value) ∈ e.payload.entries := by
          rw [heq]
          exact List.mem_append_right _ List.mem_cons_self
        exact congrArg some (congrArg Prod.snd
          (List.inj_on_of_nodup_map (Artifacts.nodup_keys e.payload) hmem h rfl))
    rw [hlookup]
    exact decide_eq_true rfl

end Events

theorem version_pos (a : ReasoningArtifact) : 1 ≤ a.version := by
  have hvalid := a.valid
  unfold Artifacts.ArtifactFields.violation at hvalid
  by_contra hzero
  rw [if_pos (.inr (by omega))] at hvalid
  cases hvalid

/-- The entry is about the write. -/
structure Shows (w : ArtifactWrite) (v : ArtifactRevision) : Prop where
  version : v.version = w.2.artifact.version
  eventId : v.eventId = w.2.event.id
  ledgerSeq : v.ledgerSeq = w.2.event.ledgerSeq
  round : v.round = w.2.artifact.round
  eventType : v.eventType = w.1.eventType
  actorClass : v.actorClass = w.1.context.actorClass
  actorId : v.actorId = w.1.context.actorId
  recordedAt : v.recordedAt = w.1.context.recordedAt
  supersedesId : v.supersedesId = w.1.supersedesId
  warrantArtifactIds : v.warrantArtifactIds = w.1.warrantArtifactIds

/-- The event of a write is read as an entry about it. -/
theorem artifactRevision_write {w : ArtifactWrite}
    (h : Artifacts.artifactEvent w.2.artifact w.1.context w.1.eventType
      (w.2.artifact.eventEntries ++ w.1.detail) = .ok w.2.event.toLedgerAppend) :
    ∃ v, artifactRevision w.2.event = .ok v ∧ Shows w v := by
  obtain ⟨call, r⟩ := w
  obtain ⟨hvalues, -⟩ := Artifacts.artifactEvent_ok h
  have hversion : r.event.payload.entries.lookup (.ofString "version")
      = some (.int r.artifact.version) := lookup_artifactEvent h (by decide)
  have hsupersedes : payloadUuid r.event "supersedes_id" = .ok call.supersedesId := by
    unfold payloadUuid
    rw [get?_eq_of_lookup (lookup_artifactEvent h (by decide))]
    cases call with
    | commit artifact nodeId edgeIds label context => rfl
    | revise artifact nodeId edgeId edgeIds label reason context =>
      show (match get? (r.artifact.eventEntries
          ++ [(.ofString "supersedes_id", Ledger.uuidOrNull artifact.supersedesId), _]) _ with
        | none => .ok none
        | some value => (uuidOf value).map some) = Except.ok artifact.supersedesId
      cases artifact.supersedesId with
      | none => rfl
      | some id => exact congrArg (Except.map some) (uuidOf_text id)
    | withdraw w n id reason warrants context => rfl
  have hwarrants : payloadUuids r.event "warrant_artifact_ids" = .ok call.warrantArtifactIds := by
    unfold payloadUuids
    rw [get?_eq_of_lookup (lookup_artifactEvent h (by decide))]
    cases call with
    | commit artifact nodeId edgeIds label context => rfl
    | revise artifact nodeId edgeId edgeIds label reason context => rfl
    | withdraw w n id reason warrants context => exact mapM_uuidOf warrants
  have hpositive : (1 : ℤ) ≤ r.artifact.version := by exact_mod_cast version_pos r.artifact
  unfold artifactRevision
  simp only [hversion, intOf, hsupersedes, hwarrants, Except.ok_bind, dif_pos hpositive]
  exact ⟨_, rfl, rfl, rfl, rfl, hvalues.round, hvalues.eventType, hvalues.actorClass,
    hvalues.actorId, hvalues.recordedAt, rfl, rfl⟩

/-! ### When it is whole -/

/-- Every write has its entry, and the versions are numbered from 1. -/
structure WholeHistory (ws : List ArtifactWrite) (revisions : List ArtifactRevision) : Prop where
  entries : List.Forall₂ Shows ws revisions
  numbered : ∃ n, (revisions.filter (·.eventType ≠ withdrawnType)).map (·.version)
    = (List.range' 1 n).map Int.ofNat

/-- The artifact is the only version. -/
def Unrevised (s : ReasoningState) (a : ReasoningArtifact) : Prop :=
  s.chain a.workspaceId a.sessionId a.logicalId = [a]

/-- The events about the artifact are among those that are read. -/
def WritesScanned (s : ReasoningState) (a : ReasoningArtifact) : Prop :=
  ∀ e ∈ s.ledger.ofSession a.workspaceId a.sessionId, e.eventType ∈ artifactEventTypes →
    isAbout e a.id = true → e.ledgerSeq ≤ maxEventScan

section Runs

variable {s₀ s : ReasoningState} {ws : List ArtifactWrite} {a : ReasoningArtifact}

theorem eventType_mem (call : ArtifactCall) : call.eventType ∈ artifactEventTypes := by
  cases call <;> simp [artifactEventTypes, ArtifactCall.eventType]

theorem exists_row (h : Artifacts.Written s₀ s ws) {w : ArtifactWrite} (hw : w ∈ ws) :
    ∃ b ∈ s.artifacts, b.toArtifactBody = w.2.artifact.toArtifactBody :=
  List.mem_map.mp (h.body w hw)

/-- A write of a row is one to its thing. -/
theorem filter_writesTo (h : Artifacts.Written s₀ s ws) (hids : (s.artifacts.map (·.id)).Nodup)
    (ha : a ∈ s.artifacts) :
    (Artifacts.writesTo ws a).filter (·.2.artifact.id = a.id)
      = ws.filter (·.2.artifact.id = a.id) := by
  unfold Artifacts.writesTo
  rw [List.filter_filter]
  apply List.filter_congr
  intro w hw
  by_cases hid : w.2.artifact.id = a.id
  · obtain ⟨b, hb, hbody⟩ := exists_row h hw
    have hsame : b.id = a.id := by
      rw [hbody]
      exact hid
    obtain rfl := List.inj_on_of_nodup_map hids hb ha hsame
    simp [hbody]
  · simp [hid]

/-- The events of a session about a row are those of its writes. -/
theorem artifactWriteEvents_ofSession (h : Artifacts.Written s₀ s ws) (hblank : Artifacts.Blank s₀)
    (hids : (s.artifacts.map (·.id)).Nodup) (ha : a ∈ s.artifacts) :
    artifactWriteEvents (s.ledger.ofSession a.workspaceId a.sessionId) a.id
      = (ws.filter (·.2.artifact.id = a.id)).map (·.2.event) := by
  have hold : (s₀.ledger.events.filter fun e => e.workspaceId = a.workspaceId
      ∧ e.sessionId = a.sessionId).filter
        (fun e => e.eventType ∈ artifactEventTypes && isAbout e a.id) = [] := by
    rw [List.filter_eq_nil_iff]
    intro e he
    have hother : e.eventType ∉ artifactEventTypes := hblank.events e (List.mem_of_mem_filter he)
    simp [hother]
  unfold artifactWriteEvents Ledger.LedgerState.ofSession
  rw [h.events, List.filter_append, List.filter_append, hold, List.nil_append, List.filter_filter,
    List.filter_map]
  congr 1
  apply List.filter_congr
  intro w hw
  have hevent := h.event w hw
  obtain ⟨hvalues, -⟩ := Artifacts.artifactEvent_ok hevent
  have hnames := Artifacts.names_artifactEvent hevent
  have htype : w.2.event.eventType ∈ artifactEventTypes := by
    rw [hvalues.eventType]
    exact eventType_mem w.1
  by_cases hid : w.2.artifact.id = a.id
  · obtain ⟨b, hb, hbody⟩ := exists_row h hw
    have hsame : b.id = a.id := by
      rw [hbody]
      exact hid
    obtain rfl := List.inj_on_of_nodup_map hids hb ha hsame
    have habout : isAbout w.2.event b.id = true := isAbout_iff.mpr (hid ▸ hnames)
    simp [hvalues.workspaceId, hvalues.sessionId, hbody, hid, htype, habout]
  · have hother : isAbout w.2.event a.id = false := by
      rw [Bool.eq_false_iff]
      intro habout
      exact hid (hnames.unique (isAbout_iff.mp habout))
    simp [hother, hid]

/-- The entries about some writes have their versions. -/
theorem map_version {revisions : List ArtifactRevision} (h : List.Forall₂ Shows ws revisions) :
    (revisions.filter (·.eventType ≠ withdrawnType)).map (·.version)
      = (ws.flatMap ArtifactWrite.added).map fun b => Int.ofNat b.version := by
  have hwritten : committedType ≠ withdrawnType ∧ revisedType ≠ withdrawnType := by decide
  induction h with
  | nil => rfl
  | @cons w v ws revisions hshows _ ih =>
    obtain ⟨call, r⟩ := w
    have hversion : v.version = Int.ofNat r.artifact.version := hshows.version
    have htype : v.eventType = call.eventType := hshows.eventType
    rw [List.flatMap_cons, List.map_append, ← ih, List.filter_cons, htype]
    cases call with
    | commit artifact nodeId edgeIds label context =>
      rw [if_pos (by exact decide_eq_true hwritten.1), List.map_cons, hversion]
      rfl
    | revise artifact nodeId edgeId edgeIds label reason context =>
      rw [if_pos (by exact decide_eq_true hwritten.2), List.map_cons, hversion]
      rfl
    | withdraw w n id reason warrants context =>
      rw [if_neg (by simp [ArtifactCall.eventType])]
      rfl

/-- The only version is the one whose writes are all the writes to its thing. -/
theorem unrevised_iff (h : Artifacts.Written s₀ s ws) (hempty : s₀.artifacts = [])
    (hids : (s.artifacts.map (·.id)).Nodup) (ha : a ∈ s.artifacts) :
    Unrevised s a ↔ ∀ w ∈ Artifacts.writesTo ws a, w.2.artifact.id = a.id := by
  have hself := Artifacts.mem_chain_self ha
  constructor
  · intro honly w hw
    obtain ⟨hmem, hkeys⟩ := List.mem_filter.mp hw
    obtain ⟨b, hb, hbody⟩ := exists_row h hmem
    have hchain : b ∈ s.chain a.workspaceId a.sessionId a.logicalId := by
      refine Artifacts.mem_chain.mpr ⟨hb, ?_⟩
      rw [hbody]
      exact of_decide_eq_true hkeys
    rw [honly, List.mem_singleton] at hchain
    rw [← hbody, hchain]
  · intro hall
    have hnodup : (s.chain a.workspaceId a.sessionId a.logicalId).Nodup := (hids.of_map _).filter _
    apply List.perm_singleton.mp
    refine (List.perm_ext_iff_of_nodup hnodup (List.nodup_singleton a)).mpr fun b => ?_
    rw [List.mem_singleton]
    constructor
    · intro hb
      have hbody := List.mem_map_of_mem (f := (·.toArtifactBody)) hb
      rw [h.chain hempty, List.mem_flatMap] at hbody
      obtain ⟨⟨call, r⟩, hw, hadded⟩ := hbody
      have hsame : b.toArtifactBody = r.artifact.toArtifactBody := by
        cases call with
        | commit artifact nodeId edgeIds label context => exact List.mem_singleton.mp hadded
        | revise artifact nodeId edgeId edgeIds label reason context =>
          exact List.mem_singleton.mp hadded
        | withdraw w n id reason warrants context => cases hadded
      have hid : b.id = a.id := by
        rw [hsame]
        exact hall _ hw
      exact List.inj_on_of_nodup_map hids (Artifacts.mem_chain.mp hb).1 ha hid
    · rintro rfl
      exact hself

/-- Reading the first events finds all those about the artifact when they are scanned. -/
theorem writesScanned_iff (hchained : Ledger.Chained s.ledger) : WritesScanned s a
    ↔ artifactWriteEvents ((s.ledger.ofSession a.workspaceId a.sessionId).take maxEventScan) a.id
      = artifactWriteEvents (s.ledger.ofSession a.workspaceId a.sessionId) a.id := by
  unfold artifactWriteEvents
  rw [filter_take_eq_iff]
  have hseq := lt_ledgerSeq_iff (hchained.chain a.workspaceId a.sessionId).map_number
    (k := maxEventScan) (p := fun e => e.eventType ∈ artifactEventTypes ∧ isAbout e a.id = true)
  simpa [WritesScanned, not_and] using hseq.symm

/-- **States.**  The history of a row is the whole one exactly when the row is the only version and
    its events are scanned. -/
theorem exists_history (hwritten : Artifacts.Written s₀ s ws) (hblank : Artifacts.Blank s₀)
    (hsound : Artifacts.Sound s) (hchained : Ledger.Chained s.ledger) (ha : a ∈ s.artifacts) :
    ∃ history, artifactRevisionHistory s.ledger a.workspaceId a.sessionId a.id = .ok history
      ∧ (WholeHistory (Artifacts.writesTo ws a) history.revisions
        ↔ Unrevised s a ∧ WritesScanned s a) := by
  have hread := Ledger.readFrom_eq_take hchained a.workspaceId a.sessionId
    (show maxEventScan ≠ 0 by decide)
  let events := s.ledger.ofSession a.workspaceId a.sessionId
  have hall : artifactWriteEvents events a.id
      = (ws.filter (·.2.artifact.id = a.id)).map (·.2.event) :=
    artifactWriteEvents_ofSession hwritten hblank hsound.ids ha
  have hsublist : (artifactWriteEvents (events.take maxEventScan) a.id).Sublist
      (artifactWriteEvents events a.id) := (List.take_sublist _ _).filter _
  have hentries : ∀ w ∈ ws, ∃ v, artifactRevision w.2.event = .ok v ∧ Shows w v :=
    fun w hw => artifactRevision_write (hwritten.event w hw)
  -- Each event that is read is that of a write.
  obtain ⟨revisions, hrevisions⟩ : ∃ revisions,
      (artifactWriteEvents (events.take maxEventScan) a.id).mapM artifactRevision
        = .ok revisions := by
    apply Except.exists_mapM_ok
    intro e he
    have hmem := hsublist.subset he
    rw [hall] at hmem
    obtain ⟨w, hw, rfl⟩ := List.mem_map.mp hmem
    obtain ⟨v, hv, -⟩ := hentries w (List.mem_of_mem_filter hw)
    exact ⟨v, hv⟩
  refine ⟨⟨a.id, a.sessionId, revisions⟩, ?_, ?_⟩
  · unfold artifactRevisionHistory
    rw [hread, Except.ok_bind]
    show (artifactWriteEvents (events.take maxEventScan) a.id).mapM artifactRevision >>= _ = _
    rw [hrevisions]
    rfl
  have hlength : (artifactWriteEvents (events.take maxEventScan) a.id).length = revisions.length :=
    (Except.mapM_eq_ok_iff.mp hrevisions).length_eq
  have hself := filter_writesTo hwritten hsound.ids ha
  rw [unrevised_iff hwritten hblank.artifacts hsound.ids ha, writesScanned_iff hchained]
  constructor
  · intro hwhole
    -- Nothing is lost on the way from the writes to the entries.
    have hcount : (Artifacts.writesTo ws a).length = revisions.length := hwhole.entries.length_eq
    have hle := hsublist.length_le
    have hfilter := List.length_filter_le (·.2.artifact.id = a.id) (Artifacts.writesTo ws a)
    rw [hall, List.length_map, ← hself, hlength] at hle
    refine ⟨?_, hsublist.eq_of_length ?_⟩
    · have hsame : ((Artifacts.writesTo ws a).filter (·.2.artifact.id = a.id)).length
          = (Artifacts.writesTo ws a).length := by omega
      simpa using List.length_filter_eq_length_iff.mp hsame
    · rw [hall, List.length_map, ← hself]
      omega
  · rintro ⟨honly, hscanned⟩
    have hwrites : Artifacts.writesTo ws a = ws.filter (·.2.artifact.id = a.id) := by
      rw [← hself]
      exact (List.filter_eq_self.mpr fun w hw => decide_eq_true (honly w hw)).symm
    have hshows : List.Forall₂ Shows (Artifacts.writesTo ws a) revisions := by
      have hread := Except.mapM_eq_ok_iff.mp hrevisions
      rw [hscanned, hall, ← hwrites, List.forall₂_map_left_iff] at hread
      have hboth := (List.forall₂_and_left _ _).mpr
        ⟨fun w hw => hentries w (List.mem_of_mem_filter hw), hread⟩
      refine hboth.imp fun w v hwv => ?_
      obtain ⟨⟨v', hv', hshows⟩, hv⟩ := hwv
      obtain rfl := Except.ok.inj (hv'.symm.trans hv)
      exact hshows
    refine ⟨hshows, (s.chain a.workspaceId a.sessionId a.logicalId).length, ?_⟩
    rw [map_version hshows, ← hwritten.chain hblank.artifacts, List.map_map]
    rw [← (hsound.chain a.workspaceId a.sessionId a.logicalId).map_version, List.map_map]
    rfl

end Runs

/-- **Histories.**  After any calls, the history of an artifact shows every write to what it is a
    version of exactly when it is the only version, and its events are scanned. -/
theorem wholeHistory_iff (db : ReasoningDatabase) {s₀ : ReasoningState}
    (hblank : Artifacts.Blank s₀) (hchained : Ledger.Chained s₀.ledger) (calls : List ArtifactCall) {a : ReasoningArtifact}
    (ha : a ∈ (after (execCall db) s₀ calls).artifacts) :
    ∃ history, artifactRevisionHistory (after (execCall db) s₀ calls).ledger a.workspaceId
        a.sessionId a.id = .ok history
      ∧ (WholeHistory (Artifacts.writesTo (writes db s₀ calls) a) history.revisions
        ↔ Unrevised (after (execCall db) s₀ calls) a
          ∧ WritesScanned (after (execCall db) s₀ calls) a) := by
  obtain ⟨hwritten, hlast⟩ := Artifacts.written_after db hblank.sound hchained calls
  exact exists_history hwritten hblank (hblank.sound.after db calls) hlast ha

/-! ### A revised objective -/

section Sample

open Artifacts (sampleArtifact sampleCall sampleStart unlimitedTables)
open Session (sampleId)
open Turns (revisedObjective sampleObjective sampleRevision)

theorem chained_sampleStart : Ledger.Chained sampleStart.ledger := Ledger.chained_genesis _

theorem wholeHistory_iff_sample : ∃ history,
    artifactRevisionHistory (after (execCall unlimitedTables) sampleStart [sampleCall 1]).ledger
        (sampleArtifact 1).workspaceId (sampleArtifact 1).sessionId (sampleArtifact 1).id
      = .ok history
      ∧ (WholeHistory (Artifacts.writesTo (writes unlimitedTables sampleStart [sampleCall 1])
          (sampleArtifact 1)) history.revisions
        ↔ Unrevised (after (execCall unlimitedTables) sampleStart [sampleCall 1]) (sampleArtifact 1)
          ∧ WritesScanned (after (execCall unlimitedTables) sampleStart [sampleCall 1])
            (sampleArtifact 1)) := by
  obtain ⟨node, e, hrun, -⟩ := @Artifacts.run_sampleCall sampleStart 1 (List.forall_mem_nil _)
    (List.forall_mem_nil _) (List.forall_mem_nil _)
    (by simp [sampleStart, Ledger.genesis, Ledger.LedgerState.head?])
  have ha : sampleArtifact 1
      ∈ (after (execCall unlimitedTables) sampleStart [sampleCall 1]).artifacts := by
    rw [after_cons_of (congrArg Prod.snd hrun)]
    exact List.mem_append_right _ (List.mem_singleton_self _)
  exact wholeHistory_iff unlimitedTables Artifacts.blank_sampleStart chained_sampleStart _ ha

/-- The commit of an objective. -/
def objectiveCall : ArtifactCall :=
  .commit sampleObjective (sampleId 2) [] "Objective" (Artifacts.sampleContext 6)

/-- No version of a revised objective shows all of its history. -/
theorem not_wholeHistory : ¬ ∀ (db : ReasoningDatabase) (s₀ : ReasoningState), Artifacts.Blank s₀ →
    Ledger.Chained s₀.ledger → ∀ calls, ∀ a ∈ (after (execCall db) s₀ calls).artifacts,
    ∃ history, artifactRevisionHistory (after (execCall db) s₀ calls).ledger a.workspaceId
        a.sessionId a.id = .ok history
      ∧ WholeHistory (Artifacts.writesTo (writes db s₀ calls) a) history.revisions := by
  intro hclaim
  obtain ⟨node, e, hcommit, hnode, hledger⟩ := Turns.exists_commit_sampleObjective
    Turns.hasEvents_sampleStart (fun _ h => absurd h List.not_mem_nil) (by decide)
  obtain ⟨r, s', hrevise⟩ := Turns.exists_run_sampleRevision hnode hledger (by decide +kernel)
    (by decide)
  have hfirst : execCall unlimitedTables objectiveCall sampleStart = (.ok ⟨sampleObjective, e⟩,
      ⟨[sampleObjective], [node], [], sampleStart.ledger.insert e⟩) := by
    unfold execCall ArtifactCall.run
    refine Artifacts.transaction_ok.mpr ⟨?_, rfl⟩
    exact hcommit
  have hsecond : execCall unlimitedTables sampleRevision
      ⟨[sampleObjective], [node], [], sampleStart.ledger.insert e⟩ = (.ok r, s') :=
    Artifacts.transaction_ok.mpr ⟨hrevise, rfl⟩
  have hafter : after (execCall unlimitedTables) sampleStart [objectiveCall, sampleRevision]
      = s' := by
    rw [after_cons_of (congrArg Prod.snd hfirst), after_cons_of (congrArg Prod.snd hsecond),
      after_nil]
  -- Both versions are in the table.
  have hbodies : s'.bodies
      = [sampleObjective.toArtifactBody] ++ [revisedObjective.toArtifactBody] := by
    unfold ArtifactCall.statements sampleRevision at hrevise
    obtain ⟨previous, previousNode, node', edges, edge, event, e', ledger, -, -, -, -, rfl⟩ :=
      Artifacts.revise_ok.mp hrevise
    rw [Artifacts.bodies_extend, Artifacts.bodies_mark]
    rfl
  have hrow {body : Artifacts.ArtifactBody} (hbody : body ∈ s'.bodies) :
      ∃ b ∈ s'.artifacts, b.toArtifactBody = body := List.mem_map.mp hbody
  obtain ⟨a, ha, hold⟩ := hrow (hbodies ▸ List.mem_append_left _ (List.mem_singleton_self _))
  obtain ⟨b, hb, hnew⟩ := hrow (hbodies ▸ List.mem_append_right _ (List.mem_singleton_self _))
  have hstart := Artifacts.blank_sampleStart.sound
  obtain ⟨hwritten, hchained⟩ := Artifacts.written_after unlimitedTables hstart chained_sampleStart
    [objectiveCall, sampleRevision]
  have hsound := hstart.after unlimitedTables [objectiveCall, sampleRevision]
  obtain ⟨history, hhistory, hwhole⟩ := hclaim unlimitedTables sampleStart
    Artifacts.blank_sampleStart chained_sampleStart [objectiveCall, sampleRevision] b (hafter ▸ hb)
  obtain ⟨history', hhistory', hiff⟩ := exists_history hwritten Artifacts.blank_sampleStart hsound
    hchained (hafter ▸ hb)
  obtain rfl := Except.ok.inj (hhistory.symm.trans hhistory')
  have honly : s'.chain b.workspaceId b.sessionId b.logicalId = [b] := hafter ▸ (hiff.mp hwhole).1
  have hmem : a ∈ s'.chain b.workspaceId b.sessionId b.logicalId := by
    refine Artifacts.mem_chain.mpr ⟨ha, ?_⟩
    have hkeys : sampleObjective.workspaceId = sampleId 0 ∧ sampleObjective.sessionId = sampleId 1
        ∧ sampleObjective.logicalId = sampleId 3 := ⟨rfl, rfl, rfl⟩
    have hkeys' : revisedObjective.workspaceId = sampleId 0 ∧ revisedObjective.sessionId = sampleId 1
        ∧ revisedObjective.logicalId = sampleId 3 := ⟨rfl, rfl, rfl⟩
    rw [hold, hnew]
    exact ⟨hkeys.1.trans hkeys'.1.symm, hkeys.2.1.trans hkeys'.2.1.symm,
      hkeys.2.2.trans hkeys'.2.2.symm⟩
  rw [honly, List.mem_singleton] at hmem
  have hid : sampleObjective.id = revisedObjective.id := by rw [← hold, ← hnew, hmem]
  have hids : sampleId 2 ≠ sampleId 7 := by decide +kernel
  exact hids hid

end Sample

end Agora.Audit
