import Agora.Lib.JsonDepth
import Agora.Manifest.Service
import Agora.Marl.Stages
import Agora.Marl.Verified
import Mathlib.Data.PNat.Defs

namespace Agora.Manifest

open Ledger (LedgerEvent LedgerState NonBlank Payload)
open Marl (Hash canonicalHash_eq_ok modelValidateJson_eq_ok sha256Hash)
open Replay (HistoricalReplay MarlReplayBundle ReplayManifestRef ReplayStep ledgerReadLimit readLedger)
open Stateful

/-!
# What can be replayed

A finalized manifest is read back as the document it was finalized with, if its JSON is not nested
deeper than the parser reads (`validateJson_iff`).  A replay is built from it exactly when no two
steps have the same order: the validators of the document let equal orders pass, those of the replay
do not.
-/

section Documents

variable [Runtime] {d d' : RunManifestDocument} {body : Bytes}

/-! ### Reading a document back -/

omit [Runtime] in
theorem utf8_of_bytesText {b : Bytes} {text : String} (h : bytesText b = .ok text) :
    utf8 text.toList = b := by
  unfold bytesText at h
  split at h
  case h_1 cs hcs =>
    rw [← Except.ok.inj h, String.toList_ofList]
    exact utf8_of_decodeUtf8 hcs
  case h_2 => cases h

omit [Runtime] in
theorem bundle_of_bundleText {b : MarlReplayBundle} {text : BundleText} (h : bundleText b = .ok text) :
    text.bundle = b := by
  obtain ⟨manifest, hmanifest, h⟩ := Except.bind_eq_ok.mp h
  obtain ⟨trajectory, htrajectory, h⟩ := Except.bind_eq_ok.mp h
  rw [← Except.ok.inj h]
  unfold BundleText.bundle
  simp only [utf8_of_bytesText hmanifest, utf8_of_bytesText htrajectory]

omit [Runtime] in
theorem bundles_of_mapM {bundles : List MarlReplayBundle} {texts : List BundleText}
    (h : bundles.mapM bundleText = .ok texts) : texts.map BundleText.bundle = bundles := by
  induction Except.mapM_eq_ok_iff.mp h with
  | nil => rfl
  | cons hb hrest ih =>
    rw [List.map_cons, bundle_of_bundleText hb, ih (Except.mapM_eq_ok_iff.mpr hrest)]

/-- The JSON of the document is not nested deeper than the parser reads. -/
def RunManifestDocument.Readable (d : RunManifestDocument) : Prop :=
  ∀ j, d.modelDump = .ok j → j.depth ≤ Marl.Runtime.recursionLimit

theorem normal_of_modelDump {j : Json} (h : d.modelDump = .ok j) : j.Normal = true := by
  obtain ⟨texts, -, h⟩ := Except.bind_eq_ok.mp h
  rw [← Except.ok.inj h]
  exact documentCodec.normal_dump _

theorem runManifestBytes_eq_ok : d.runManifestBytes = .ok body ↔
    ∃ j, d.modelDump = .ok j ∧ j.encodable = true ∧ body = utf8 j.canonical := by
  unfold RunManifestDocument.runManifestBytes
  rw [Except.bind_eq_ok]
  simp only [Json.canonicalJson_eq_ok, eq_comm (a := body)]

/-- The hash of a document is that of its bytes. -/
theorem runManifestHash_eq_ok (hbody : d.runManifestBytes = .ok body) {hash : Hash} :
    d.runManifestHash = .ok hash ↔ hash = sha256Hash body := by
  obtain ⟨j, hj, henc, rfl⟩ := runManifestBytes_eq_ok.mp hbody
  unfold RunManifestDocument.runManifestHash
  rw [hj, Except.ok_bind, canonicalHash_eq_ok, and_iff_right henc]

/-- A value that was loaded is that of the document it was dumped from. -/
theorem load_modelDump {j : Json} (h : d.modelDump = .ok j) : ∃ texts,
    documentCodec.load j = some ⟨d.toManifestFields, texts, d.required_pins⟩
      ∧ texts.map BundleText.bundle = d.marlBundles := by
  obtain ⟨texts, htexts, h⟩ := Except.bind_eq_ok.mp h
  refine ⟨texts, ?_, bundles_of_mapM htexts⟩
  rw [← Except.ok.inj h]
  exact documentCodec.load_dump _

/-- **Documents.**  The bytes of a document are read as the document, and they are read when they are
    not nested too deep. -/
theorem validateJson_iff (hbody : d.runManifestBytes = .ok body) :
    RunManifestDocument.validateJson body = .ok d' ↔ d' = d ∧ d.Readable := by
  obtain ⟨j, hj, henc, rfl⟩ := runManifestBytes_eq_ok.mp hbody
  have hnormal := normal_of_modelDump hj
  obtain ⟨texts, hload, hbundles⟩ := load_modelDump hj
  have hreadable : d.Readable ↔ j.depth ≤ Marl.Runtime.recursionLimit := by
    unfold RunManifestDocument.Readable
    simp [hj]
  rw [hreadable]
  unfold RunManifestDocument.validateJson
  rw [Except.bind_eq_ok]
  constructor
  · rintro ⟨x, hx, h⟩
    obtain ⟨text, value, htext, hvalue, hread⟩ := modelValidateJson_eq_ok.mp hx
    rw [decodeUtf8_utf8] at htext
    cases htext
    obtain ⟨rfl, hdepth⟩ := (Json.loads_canonical_iff henc hnormal).mp hvalue
    rw [hload] at hread
    obtain rfl := Option.some.inj hread
    rw [← Except.ok.inj h]
    simp only [hbundles]
    exact ⟨trivial, hdepth⟩
  · rintro ⟨rfl, hdepth⟩
    have hvalue := (Json.loads_canonical_iff henc hnormal).mpr ⟨rfl, hdepth⟩
    refine ⟨_, modelValidateJson_eq_ok.mpr ⟨_, _, decodeUtf8_utf8 _, hvalue, hload⟩, ?_⟩
    simp only [hbundles]
    rfl

end Documents

/-! ### Reading a ledger -/

section Numbered

variable {α : Type} {number : α → ℕ} {l : List α} {m : ℕ}

/-- In a numbered list, what has a number from some place on is what stands from there on. -/
theorem filter_of_numbered (h : l.map number = List.range' m l.length) (k : ℕ) :
    l.filter (fun a => decide (m + k ≤ number a)) = l.drop k := by
  induction l generalizing m k with
  | nil => simp
  | cons a l ih =>
    rw [List.map_cons, List.length_cons, List.range'_succ, List.cons.injEq] at h
    obtain ⟨hfirst, hrest⟩ := h
    cases k with
    | zero =>
      apply List.filter_eq_self.mpr
      intro b hb
      rcases List.mem_cons.mp hb with rfl | hb
      · exact decide_eq_true (by omega)
      · have hnumber : number b ∈ List.range' (m + 1) l.length := hrest ▸ List.mem_map_of_mem hb
        have hrange := List.mem_range'_1.mp hnumber
        exact decide_eq_true (by omega)
    | succ k =>
      rw [List.filter_cons_of_neg (by simp; omega), List.drop_succ_cons, ← ih hrest k]
      congr 1
      funext b
      rw [Nat.add_right_comm, Nat.add_assoc]

/-- The number of the last element. -/
theorem getLast_of_numbered (h : l.map number = List.range' m l.length) (hne : l ≠ []) :
    number (l.getLast hne) = m + l.length - 1 := by
  have hmap : (l.map number).getLast (by simpa using hne) = number (l.getLast hne) :=
    List.getLast_map _
  rw [← hmap]
  simp only [h]
  exact List.getLast_range' _

theorem take_drop_of_numbered (h : l.map number = List.range' m l.length) (k n : ℕ) :
    ((l.drop k).take n).map number = List.range' (m + k) ((l.drop k).take n).length := by
  rw [List.map_take, List.map_drop, h, List.drop_range', List.length_take, List.length_drop, Nat.mul_one]
  rcases Nat.le_total n (l.length - k) with hle | hle
  · rw [List.take_range'_of_length_ge hle, min_eq_left hle]
  · rw [List.take_range'_of_length_le hle, min_eq_right hle]

end Numbered

/-- The events of the session are numbered from one on. -/
def Gapless (ledger : LedgerState) (w n : UUID) : Prop :=
  (ledger.rows w n).map (·.ledgerSeq) = List.range' 1 (ledger.rows w n).length

theorem Gapless.readFrom_eq {ledger : LedgerState} {w n : UUID} (h : Gapless ledger w n) (k : ℕ) :
    ledger.readFrom w n (k + 1) ledgerReadLimit
      = .ok (((ledger.rows w n).drop k).take ledgerReadLimit) := by
  unfold LedgerState.readFrom
  rw [if_neg (Nat.succ_ne_zero k), if_neg (by decide), Nat.add_comm k 1, filter_of_numbered h k]

/-- A gapless ledger is read as a whole, batch by batch. -/
theorem Gapless.readLedger_eq {ledger : LedgerState} {w n : UUID} (h : Gapless ledger w n) (k : ℕ) :
    readLedger ledger w n (k + 1) = .ok ((ledger.rows w n).drop k) := by
  induction hrest : (ledger.rows w n).length - k using Nat.strong_induction_on generalizing k with
  | _ rest ih =>
    unfold readLedger
    split
    case h_1 e hread =>
      rw [h.readFrom_eq] at hread
      cases hread
    case h_2 batch hread =>
      rw [h.readFrom_eq] at hread
      obtain rfl := Except.ok.inj hread
      split
      case isTrue hlength =>
        rw [List.length_take] at hlength
        rw [List.take_of_length_le (by omega)]
      case isFalse hlength =>
        -- A full batch: its last event has the number before the next one.
        have hfull : (((ledger.rows w n).drop k).take ledgerReadLimit).length = ledgerReadLimit := by
          rw [List.length_take] at hlength ⊢
          omega
        have hlimit : 0 < ledgerReadLimit := by decide
        have hleft : ledgerReadLimit ≤ (ledger.rows w n).length - k := by
          rw [List.length_take, List.length_drop] at hfull
          omega
        simp only [getLast_of_numbered (take_drop_of_numbered h k ledgerReadLimit), hfull]
        rw [show 1 + k + ledgerReadLimit - 1 + 1 = k + ledgerReadLimit + 1 by omega,
          ih _ (by omega) (k + ledgerReadLimit) rfl, Except.ok_bind, ← List.drop_drop]
        exact congrArg Except.ok (List.take_append_drop _ _)

/-! ### Finalizing -/

section Finalize

variable {σ : Type} {s s' : ManifestState σ} {w n : UUID} {d : RunManifestDocument} {m : RunManifest}
  {pinned : ReplayManifestRef} {stored : ObjectRef}

/-- A finalized row of a session, with its identity and the object it points to. -/
structure PointsTo (row : RunManifestRow) (w n : UUID) (pinned : ReplayManifestRef) (stored : ObjectRef) :
    Prop where
  workspaceId : row.workspaceId = w
  sessionId : row.sessionId = n
  status : row.status = .finalized
  id : row.id = pinned.manifestId
  version : row.manifestVersion = pinned.manifestVersion
  hash : row.manifestHash = some pinned.manifestHash
  bucket : row.manifestBucket = some stored.bucket
  key : row.manifestRef = some stored.key

theorem ref_eq_ok : m.ref = .ok pinned ↔ m.status = .finalized ∧ m.id = pinned.manifestId
    ∧ m.manifestVersion = pinned.manifestVersion ∧ m.manifestHash = some pinned.manifestHash := by
  unfold RunManifest.ref
  split
  case h_1 hash hstatus hhash =>
    rw [hstatus, hhash]
    constructor
    · intro h
      rw [← Except.ok.inj h]
      exact ⟨rfl, rfl, rfl, rfl⟩
    · rintro ⟨-, hid, hversion, heq⟩
      cases pinned
      simp_all
  case h_2 hother =>
    simp only [reduceCtorEq, false_iff]
    rintro ⟨hstatus, -, -, hhash⟩
    exact hother _ hstatus hhash

/-- The columns that a reference is made of. -/
theorem reference_eq_some {row : RunManifestRow} {reference : ObjectRef}
    (h : row.reference = some reference) : row.manifestBucket = some reference.bucket
      ∧ row.manifestRef = some reference.key := by
  unfold RunManifestRow.reference at h
  obtain ⟨key, hkey, h⟩ := Option.bind_eq_some_iff.mp h
  obtain ⟨bucket, hbucket, h⟩ := Option.bind_eq_some_iff.mp h
  obtain ⟨hash, -, h⟩ := Option.bind_eq_some_iff.mp h
  rw [← Option.some.inj h]
  exact ⟨hbucket, hkey⟩

/-- What a row becomes when it is finalized. -/
theorem finalize_eq_some {row updated : RunManifestRow} {hash : Option Hash} {finalizedAt : Option Datetime}
    (h : row.finalize stored hash finalizedAt = some updated) : updated.id = row.id
      ∧ updated.workspaceId = row.workspaceId ∧ updated.sessionId = row.sessionId
      ∧ updated.manifestVersion = row.manifestVersion ∧ updated.status = .finalized
      ∧ updated.manifestHash = hash ∧ updated.manifestBucket = some stored.bucket
      ∧ updated.manifestRef = some stored.key := by
  unfold RunManifestRow.finalize at h
  split at h
  case h_1 =>
    rw [← Option.some.inj h]
    exact ⟨rfl, rfl, rfl, rfl, rfl, rfl, rfl, rfl⟩
  case h_2 => cases h

/-- A row that is set is in the table when there was one with its id. -/
theorem mem_setRow {row updated : RunManifestRow} (hrow : row ∈ s.rows) (hid : updated.id = row.id) :
    updated ∈ (s.setRow updated).rows :=
  List.mem_map.mpr ⟨row, hrow, if_pos hid.symm⟩

/-- What the repository returns for the finalized manifest of a session is the manifest of a row that
    points to its object. -/
theorem repositoryFinalize_ok {db : Database} {requested current : RunManifest} {hash : Hash}
    (h : repositoryFinalize db requested s = (.ok m, s'))
    (hcurrent : s.getForSession requested.workspaceId requested.sessionId = some current)
    (hstored : requested.manifestRef = some stored) (hhash : requested.manifestHash = some hash)
    (hid : requested.id = current.id) (hversion : requested.manifestVersion = current.manifestVersion) :
    s'.objects = s.objects
      ∧ ∃ pinned, m.ref = .ok pinned ∧ pinned.manifestHash = hash
        ∧ ∃ row ∈ s'.rows, PointsTo row requested.workspaceId requested.sessionId pinned stored := by
  unfold repositoryFinalize at h
  obtain ⟨hstatus, h⟩ := ensure_bind_eq_ok.mp h
  obtain ⟨reference, hreference, h⟩ := required_bind_eq_ok.mp h
  obtain rfl := Option.some.inj (hreference.symm.trans hstored)
  rw [read_bind, hcurrent] at h
  obtain ⟨_, hsome, h⟩ := required_bind_eq_ok.mp h
  obtain rfl := Option.some.inj hsome
  obtain ⟨row, hrow, rfl⟩ := Option.map_eq_some_iff.mp hcurrent
  have hmem := List.mem_of_find?_eq_some hrow
  have hkey : row.workspaceId = requested.workspaceId ∧ row.sessionId = requested.sessionId := by
    simpa using List.find?_some hrow
  let pinned : ReplayManifestRef :=
    ⟨requested.id, requested.manifestVersion, hash, requested.positive_version⟩
  split_ifs at h with hfinalized
  · -- Finalized before, with the same values.
    obtain ⟨hsame, h⟩ := ensure_bind_eq_ok.mp h
    cases h
    unfold RunManifest.same at hsame
    simp only [Bool.and_eq_true, decide_eq_true_eq] at hsame
    obtain ⟨⟨⟨⟨⟨⟨⟨⟨⟨-, href⟩, hrowHash⟩, -⟩, -⟩, -⟩, -⟩, -⟩, -⟩, -⟩ := hsame
    rw [hreference] at href
    rw [hhash] at hrowHash
    obtain ⟨hbucket, hkeyColumn⟩ := reference_eq_some href
    refine ⟨rfl, pinned, ref_eq_ok.mpr ⟨hfinalized, hid.symm, hversion.symm, hrowHash⟩, rfl, row, hmem, ?_⟩
    exact ⟨hkey.1, hkey.2, hfinalized, hid.symm, hversion.symm, hrowHash, hbucket, hkeyColumn⟩
  · rw [read_bind] at h
    obtain ⟨target, htarget, h⟩ := required_bind_eq_ok.mp h
    obtain ⟨updated, hupdated, h⟩ := required_bind_eq_ok.mp h
    obtain ⟨-, h⟩ := ensure_bind_eq_ok.mp h
    cases h
    -- The row with the id of the manifest is the row of its session.
    have htargetId : target.id = m.id := by simpa using List.find?_some htarget
    obtain rfl := List.inj_on_of_nodup_map s.unique_ids (List.mem_of_find?_eq_some htarget) hmem
      (htargetId.trans hid)
    obtain ⟨hsameId, hworkspace, hsession, hsameVersion, hnow, hnewHash, hbucket, hkeyColumn⟩ :=
      finalize_eq_some hupdated
    refine ⟨rfl, pinned, ref_eq_ok.mpr ⟨hstatus, rfl, rfl, hhash⟩, rfl, updated, mem_setRow hmem hsameId, ?_⟩
    exact ⟨hworkspace.trans hkey.1, hsession.trans hkey.2, hnow, hsameId.trans htargetId,
      hsameVersion.trans hversion.symm, hnewHash.trans hhash, hbucket, hkeyColumn⟩

variable [Runtime] {service : RunManifestService σ} {finalizedAt : Datetime}

/-- What finalizing leaves behind: the bytes of the document under the reference of a finalized row. -/
structure Finalized (objects : ObjectStore σ) (s : ManifestState σ) (w n : UUID) (d : RunManifestDocument)
    (pinned : ReplayManifestRef) (body : Bytes) (row : RunManifestRow) : Prop where
  bytes : d.runManifestBytes = .ok body
  hash : pinned.manifestHash = sha256Hash body
  mem : row ∈ s.rows
  identity : row.workspaceId = w ∧ row.sessionId = n ∧ row.status = .finalized
    ∧ row.id = pinned.manifestId ∧ row.manifestVersion = pinned.manifestVersion
    ∧ row.manifestHash = some pinned.manifestHash
  object : ∃ reference, row.reference = some reference ∧ objects.get s.objects reference = .ok body

omit [Runtime] in
/-- The reference of a row that points to an object. -/
theorem PointsTo.reference_eq {row : RunManifestRow} (h : PointsTo row w n pinned stored) :
    row.reference = some ⟨stored.bucket, stored.key, pinned.manifestHash.text, "application/json",
      row.manifestSize⟩ := by
  unfold RunManifestRow.reference
  simp [h.key, h.bucket, h.hash]

/-- **Finalizing.** -/
theorem finalize_ok (h : service.finalize w n d finalizedAt s = (.ok m, s')) :
    ∃ pinned body row, m.ref = .ok pinned ∧ Finalized service.objects s' w n d pinned body row := by
  unfold RunManifestService.finalize at h
  rw [read_bind] at h
  obtain ⟨current, hcurrent, h⟩ := required_bind_eq_ok.mp h
  obtain ⟨_, -, h⟩ := lift_bind_eq_ok.mp h
  obtain ⟨digest, hdigest, h⟩ := lift_bind_eq_ok.mp h
  obtain ⟨body, hbody, h⟩ := lift_bind_eq_ok.mp h
  obtain ⟨stored, t, hzoom, h⟩ := bind_eq_ok.mp h
  obtain ⟨objects, hput, rfl⟩ := zoom_eq_ok.mp hzoom
  obtain ⟨hmatch, h⟩ := ensure_bind_eq_ok.mp h
  obtain rfl := (runManifestHash_eq_ok hbody).mp hdigest
  obtain ⟨found, hfound, hmanifest⟩ := Option.map_eq_some_iff.mp hcurrent
  have hkey : found.workspaceId = w ∧ found.sessionId = n := by
    simpa using List.find?_some hfound
  have hworkspace : current.workspaceId = w := by
    rw [← hmanifest]
    exact hkey.1
  have hsession : current.sessionId = n := by
    rw [← hmanifest]
    exact hkey.2
  have hagain : (s.setObjects objects).getForSession current.workspaceId current.sessionId
      = some current := by
    rw [hworkspace, hsession]
    exact hcurrent
  obtain ⟨hobjects, pinned, hpinned, hhash, row, hrow, hpoints⟩ :=
    repositoryFinalize_ok h hagain rfl rfl rfl rfl
  refine ⟨pinned, body, row, hpinned, hbody, hhash, hrow, ?_, ?_⟩
  · exact ⟨hpoints.workspaceId.trans hworkspace, hpoints.sessionId.trans hsession, hpoints.status,
      hpoints.id, hpoints.version, hpoints.hash⟩
  · refine ⟨_, hpoints.reference_eq, ?_⟩
    rw [hobjects]
    apply service.objects.get_put hput
    · rfl
    · rfl
    · rw [hhash]
      exact hmatch.symm

/-! ### Loading -/

/-- A later state: finalized rows are immutable, and the object store still returns what it stored. -/
structure Kept (objects : ObjectStore σ) (s later : ManifestState σ) : Prop where
  rows : ∀ row ∈ s.rows, row.status = .finalized → row ∈ later.rows
  bytes : ∀ reference body, objects.get s.objects reference = .ok body →
    objects.get later.objects reference = .ok body

omit [Runtime] in
theorem kept_self (objects : ObjectStore σ) (s : ManifestState σ) : Kept objects s s where
  rows _ hrow _ := hrow
  bytes _ _ h := h

omit [Runtime] in
/-- A replay is built for a gapless ledger exactly when the orders of the steps increase. -/
theorem historicalReplay_iff (pinned : ReplayManifestRef) {ledger : LedgerState}
    (hledger : Gapless ledger w n) (hids : (d.replaySteps.map (·.stepId)).Nodup) :
    (∃ replay, historicalReplay w n pinned (ledger.rows w n) d.replaySteps d.marlBundles = .ok replay
        ∧ replay.steps = d.replaySteps ∧ replay.marlBundles = d.marlBundles)
      ↔ (d.replaySteps.map (·.order)).Pairwise (· < ·) := by
  have hsame : ∀ e ∈ ledger.rows w n, e.workspaceId = w ∧ e.sessionId = n := by
    intro e he
    have hmem := (List.perm_insertionSort _ _).mem_iff.mp he
    exact of_decide_eq_true (List.mem_filter.mp hmem).2
  unfold historicalReplay
  simp only [dif_pos hsame, dif_pos (show (ledger.rows w n).map (·.ledgerSeq) = _ from hledger)]
  split_ifs with hordered
  · simp [hordered]
  · simp [hordered]

omit [Runtime] in
/-- The orders of a document are distinct exactly when they increase. -/
theorem nodup_orders_iff (d : RunManifestDocument) :
    (d.replaySteps.map (·.order)).Pairwise (· < ·) ↔ (d.replaySteps.map (·.order)).Nodup := by
  constructor
  · intro h
    exact h.imp fun hlt => hlt.ne
  · intro h
    have hsorted := d.required_pins.ordered_steps
    exact (hsorted.and h).imp fun hab => Nat.lt_of_le_of_ne hab.1 hab.2

/-- **Loading.** -/
theorem load_iff {objects : ObjectStore σ} {ledger : LedgerState} {later : ManifestState σ}
    {body : Bytes} {row : RunManifestRow} (h : Finalized objects later w n d pinned body row)
    (hledger : Gapless ledger w n) :
    (∃ replay, load objects ledger later w n pinned = .ok (some replay)
        ∧ replay.steps = d.replaySteps ∧ replay.marlBundles = d.marlBundles)
      ↔ (d.replaySteps.map (·.order)).Nodup ∧ d.Readable := by
  obtain ⟨hworkspace, hsession, hstatus, hid, hversion, hhash⟩ := h.identity
  obtain ⟨reference, hreference, hget⟩ := h.object
  have hfound : later.getFinalized w n pinned = some row.manifest := by
    unfold ManifestState.getFinalized
    generalize hp : (fun row : RunManifestRow => decide (row.workspaceId = w ∧ row.sessionId = n
      ∧ row.id = pinned.manifestId ∧ row.manifestVersion = pinned.manifestVersion
      ∧ row.manifestHash = some pinned.manifestHash ∧ row.status = .finalized)) = p
    have hmatches : p row = true := by
      rw [← hp]
      simp [hworkspace, hsession, hid, hversion, hhash, hstatus]
    rw [Option.map_eq_some_iff]
    obtain ⟨found, hfound⟩ := Option.isSome_iff_exists.mp (List.find?_isSome.mpr ⟨row, h.mem, hmatches⟩)
    -- The id is the key of the table.
    have hsame : found.id = pinned.manifestId := by
      have hmatches := List.find?_some hfound
      rw [← hp] at hmatches
      exact (of_decide_eq_true hmatches).2.2.1
    obtain rfl := List.inj_on_of_nodup_map later.unique_ids (List.mem_of_find?_eq_some hfound) h.mem
      (hsame.trans hid.symm)
    exact ⟨found, hfound, rfl⟩
  have href : row.manifest.ref = .ok pinned := ref_eq_ok.mpr ⟨hstatus, hid, hversion, hhash⟩
  have hrecord : row.manifest.manifestRef = some reference := hreference
  have hrecordHash : row.manifest.manifestHash = some pinned.manifestHash := hhash
  unfold load
  simp only [hfound, hrecord, hrecordHash, hget, Except.ok_bind]
  by_cases hreadable : d.Readable
  · rw [(validateJson_iff h.bytes).mpr ⟨rfl, hreadable⟩, and_iff_left hreadable, ← nodup_orders_iff,
      ← historicalReplay_iff pinned hledger d.required_pins.unique_steps]
    have hash : d.runManifestHash = .ok pinned.manifestHash := (runManifestHash_eq_ok h.bytes).mpr h.hash
    simp only [Except.ok_bind, h.bytes, hash, href, hledger.readLedger_eq 0, List.drop_zero]
    simp only [ne_eq, not_true_eq_false, decide_false, Marl.raiseIf, Bool.false_eq_true, if_false,
      Except.ok_bind]
    constructor
    · rintro ⟨replay, hload, hsteps⟩
      obtain ⟨built, hbuilt, hload⟩ := Except.bind_eq_ok.mp hload
      obtain rfl := Option.some.inj (Except.ok.inj hload)
      exact ⟨built, hbuilt, hsteps⟩
    · rintro ⟨replay, hbuilt, hsteps⟩
      exact ⟨replay, by rw [hbuilt]; rfl, hsteps⟩
  · simp only [hreadable, and_false, iff_false]
    rintro ⟨replay, hload, -⟩
    obtain ⟨document, hdocument, -⟩ := Except.bind_eq_ok.mp hload
    exact hreadable ((validateJson_iff h.bytes).mp hdocument).2

/-- What was finalized stays finalized. -/
theorem Finalized.kept {objects : ObjectStore σ} {later : ManifestState σ} {body : Bytes}
    {row : RunManifestRow} (h : Finalized objects s w n d pinned body row) (hkept : Kept objects s later) :
    Finalized objects later w n d pinned body row where
  bytes := h.bytes
  hash := h.hash
  mem := hkept.rows row h.mem h.identity.2.2.1
  identity := h.identity
  object := by
    obtain ⟨reference, hreference, hget⟩ := h.object
    exact ⟨reference, hreference, hkept.bytes _ _ hget⟩

/-- **Replay.**  A manifest that was finalized can be replayed at any later time exactly when no two
    steps of its document have the same order, given that its JSON is not nested deeper than the parser
    reads. -/
theorem replayable_iff (h : service.finalize w n d finalizedAt s = (.ok m, s')) {later : ManifestState σ}
    (hkept : Kept service.objects s' later) {ledger : LedgerState} (hledger : Gapless ledger w n) :
    (∃ pinned replay, m.ref = .ok pinned ∧ load service.objects ledger later w n pinned = .ok (some replay)
        ∧ replay.steps = d.replaySteps ∧ replay.marlBundles = d.marlBundles)
      ↔ (d.replaySteps.map (·.order)).Nodup ∧ d.Readable := by
  obtain ⟨pinned, body, row, hpinned, hfinalized⟩ := finalize_ok h
  rw [← load_iff (hfinalized.kept hkept) hledger]
  constructor
  · rintro ⟨pinned', replay, hpinned', hload⟩
    rw [hpinned] at hpinned'
    obtain rfl := Except.ok.inj hpinned'
    exact ⟨replay, hload⟩
  · rintro ⟨replay, hload⟩
    exact ⟨pinned, replay, hpinned, hload⟩

end Finalize

/-! ### Samples -/

/-- A runtime that reads times in the text that they are dumped as. -/
@[reducible]
def zuluRuntime : Runtime :=
  { Marl.canonicalRuntime with
    parseDatetime
      | .str s => (PyStr.chars? s).bind Datetime.ofZulu
      | _ => none
    parseDatetime_zulu := fun t => by simp [Json.text, PyStr.ofString, Datetime.ofZulu_zulu] }

section Samples

attribute [local instance] zuluRuntime

open Marl (sampleId)

def word : NonBlank := ⟨"word", by decide⟩

def emptyObject : FreeForm := ⟨[], by decide⟩

def emptyPayload : Payload := ⟨[], by decide, by decide⟩

/-- The hash of an empty object. -/
def emptyHash : Hash :=
  ⟨"sha256:44136fa355b3678a1146ad16f7e8649e94fb4fc21fe77e8310c060f61caaff8a", by decide +kernel⟩

theorem canonicalHash_emptyPayload : Marl.canonicalHash emptyPayload.json = .ok emptyHash := by
  rw [canonicalHash_payload]
  decide +kernel

def sampleStep (id : Fin 10) (order : ℕ+) : ReplayStep where
  stepId := sampleId id
  order := order
  kind := .artifact
  policy := .recorded
  input := emptyPayload
  inputHash := emptyHash
  expectedOutput := emptyPayload
  expectedOutputHash := emptyHash
  positive_order := order.pos
  input_hash := canonicalHash_emptyPayload
  output_hash := canonicalHash_emptyPayload
  executable h := absurd rfl h
  recorded_only _ := rfl
  external_permitted := nofun

def start : Datetime := ⟨⟨2026, 9, 14, valid2026, validSeptember, by decide⟩, 12, 0, 0, 0, validNoon⟩

/-- A document of two steps, with the order of the second. -/
def sampleDocument (second : ℕ+) : RunManifestDocument where
  workspaceId := sampleId 6
  sessionId := sampleId 7
  code :=
    { gitSha := word
      imageDigests := ⟨[(PyStr.ofString "image", ⟨emptyHash.text, by decide +kernel⟩)], by decide⟩
      some_image := by simp
      names := by decide }
  schemaPin := ⟨word, 1⟩
  configurationHash := emptyHash
  protocol := word
  rounds := 1
  budget := emptyObject
  consensus := { strategyId := word, strategyVersion := word, parameters := emptyObject }
  agents := [
    { definitionId := sampleId 1
      definitionVersion := 1
      promptRef := word
      promptHash := emptyHash
      strategyId := word
      strategyVersion := word }]
  metrics := [{ metricId := word, metricVersion := word }]
  contents := [{ contentId := sampleId 2, kind := .source, contentHash := emptyHash }]
  replaySteps := [sampleStep 3 1, sampleStep 4 second]
  startedAt := start
  required_pins :=
    { other_source := by simp
      some_agents := by simp
      some_metrics := by simp
      some_contents := by simp
      some_steps := by simp
      unique_agents := by simp
      unique_metrics := by simp
      unique_contents := by simp
      unique_steps := by
        show [sampleId 3, sampleId 4].Nodup
        decide +kernel
      ordered_steps := by
        simp only [sampleStep, List.map_cons, List.map_nil, List.pairwise_pair]
        exact second.property }

/-- An object store that keeps the objects in a function. -/
def sampleObjects : ObjectStore (String × String → Option Bytes) where
  put bucket key body contentType _ := do
    Stateful.write fun objects k => if k = (bucket, key) then some body else objects k
    pure ⟨bucket, key, (sha256Hash body).text, contentType, some body.length⟩
  get objects reference :=
    match objects (reference.bucket, reference.key) with
    | none => .error (.lookupError "object is not stored")
    | some body =>
      if reference.digest ≠ "" ∧ reference.digest ≠ (sha256Hash body).text then
        .error (.valueError "digest mismatch")
      else .ok body
  get_put := by
    intro bucket key body contentType metadata objects objects' stored h reference hbucket hkey hdigest
    cases h
    simp only at hbucket hkey hdigest
    simp [hbucket, hkey, hdigest]

def sampleService : RunManifestService (String × String → Option Bytes) where
  db := ⟨fun _ => true⟩
  objects := sampleObjects
  bucket := "manifests"

/-- A manifest that was created with its session. -/
def sampleRow : RunManifestRow where
  id := sampleId 0
  workspaceId := sampleId 6
  sessionId := sampleId 7
  sourceSessionId := none
  manifestVersion := 1
  status := .created
  manifestBucket := none
  manifestRef := none
  manifestHash := none
  manifestSize := none
  gitSha := word
  imageDigests := ⟨[(PyStr.ofString "image", emptyHash.text)], by decide⟩
  modelPins := emptyObject
  promptHashes := ⟨[(PyStr.ofString (sampleId 1).text, emptyHash.text)], by decide⟩
  seed := none
  createdAt := start
  finalizedAt := none
  positive_version := by decide
  source_differs := by simp
  created_shape _ := ⟨rfl, rfl, rfl, rfl, rfl⟩
  finalized_shape := nofun

def sampleState : ManifestState (String × String → Option Bytes) where
  rows := [sampleRow]
  objects _ := none
  unique_ids := by simp

theorem validateDocument_sample (second : ℕ+) :
    validateDocument sampleRow.manifest (sampleDocument second) = .ok () := by
  rfl

/-- The sample is finalized when its document has bytes. -/
theorem exists_finalize_sample {second : ℕ+} {body : Bytes}
    (hbody : (sampleDocument second).runManifestBytes = .ok body) : ∃ m after,
      sampleService.finalize (sampleId 6) (sampleId 7) (sampleDocument second) start sampleState
        = (.ok m, after) := by
  have hhash := (runManifestHash_eq_ok hbody).mpr rfl
  have hsession : sampleState.getForSession (sampleId 6) (sampleId 7) = some sampleRow.manifest := rfl
  unfold RunManifestService.finalize
  rw [read_bind, hsession]
  refine ⟨_, _, required_bind_eq_ok.mpr ⟨_, rfl, lift_bind_eq_ok.mpr ⟨(), validateDocument_sample second,
    lift_bind_eq_ok.mpr ⟨_, hhash, lift_bind_eq_ok.mpr ⟨_, hbody,
      bind_eq_ok.mpr ⟨_, _, zoom_eq_ok.mpr ⟨_, rfl, rfl⟩, ensure_bind_eq_ok.mpr ⟨rfl, rfl⟩⟩⟩⟩⟩⟩⟩

/-- What the sample is dumped as. -/
def sampleJson (second : ℕ+) : Json :=
  documentCodec.dump ⟨(sampleDocument second).toManifestFields, [], (sampleDocument second).required_pins⟩

theorem modelDump_sample (second : ℕ+) : (sampleDocument second).modelDump = .ok (sampleJson second) := rfl

theorem sampleJson_light {second : ℕ+} (h : second = 1 ∨ second = 2) :
    (sampleJson second).encodable = true ∧ (sampleJson second).depth ≤ 1000 := by
  rcases h with rfl | rfl
  · decide +kernel
  · decide +kernel

theorem readable_sample {second : ℕ+} (h : second = 1 ∨ second = 2) : (sampleDocument second).Readable := by
  intro j hj
  rw [modelDump_sample] at hj
  rw [← Except.ok.inj hj]
  exact (sampleJson_light h).2

theorem runManifestBytes_sample {second : ℕ+} (h : second = 1 ∨ second = 2) :
    (sampleDocument second).runManifestBytes = .ok (utf8 (sampleJson second).canonical) :=
  runManifestBytes_eq_ok.mpr ⟨_, modelDump_sample _, (sampleJson_light h).1, rfl⟩

theorem nodup_orders_sample (second : ℕ+) :
    ((sampleDocument second).replaySteps.map (·.order)).Nodup ↔ 1 ≠ second := by
  show [1, (second : ℕ)].Nodup ↔ _
  rw [List.nodup_cons, List.mem_singleton, and_iff_left (List.nodup_singleton _)]
  exact ⟨fun h heq => h (congrArg PNat.val heq), fun h heq => h (Subtype.ext heq)⟩

theorem gapless_empty (w n : UUID) : Gapless ⟨[], fun _ => none⟩ w n := rfl

/-- Two steps with the orders 1 and 2 are replayed. -/
theorem replayable_iff_increasing : ∃ m after pinned replay,
    sampleService.finalize (sampleId 6) (sampleId 7) (sampleDocument 2) start sampleState = (.ok m, after)
      ∧ m.ref = .ok pinned
      ∧ load sampleObjects ⟨[], fun _ => none⟩ after (sampleId 6) (sampleId 7) pinned = .ok (some replay)
      ∧ replay.steps = [sampleStep 3 1, sampleStep 4 2] := by
  obtain ⟨m, after, h⟩ := exists_finalize_sample (runManifestBytes_sample (.inr rfl))
  obtain ⟨pinned, replay, hpinned, hload, hsteps, -⟩ := (replayable_iff h
    (kept_self sampleObjects after) (gapless_empty _ _)).mpr ⟨(nodup_orders_sample 2).mpr (by decide), readable_sample (.inr rfl)⟩
  exact ⟨m, after, pinned, replay, h, hpinned, hload, hsteps⟩

/-- Two steps of the order 1 are finalized and never replayed: loading them raises. -/
theorem equal_orders_not_replayable : ∃ m after pinned,
    sampleService.finalize (sampleId 6) (sampleId 7) (sampleDocument 1) start sampleState = (.ok m, after)
      ∧ m.ref = .ok pinned ∧ (sampleDocument 1).Readable
      ∧ ∀ later, Kept sampleObjects after later → ¬ ∃ replay,
        load sampleObjects ⟨[], fun _ => none⟩ later (sampleId 6) (sampleId 7) pinned
          = .ok (some replay) ∧ replay.steps = (sampleDocument 1).replaySteps
            ∧ replay.marlBundles = (sampleDocument 1).marlBundles := by
  obtain ⟨m, after, h⟩ := exists_finalize_sample (runManifestBytes_sample (.inl rfl))
  obtain ⟨pinned, body, row, hpinned, hfinalized⟩ := finalize_ok h
  refine ⟨m, after, pinned, h, hpinned, readable_sample (.inl rfl), fun later hkept => ?_⟩
  intro hload
  have horders := ((load_iff (hfinalized.kept hkept) (gapless_empty _ _)).mp hload).1
  exact (nodup_orders_sample 1).mp horders rfl

end Samples

end Agora.Manifest
