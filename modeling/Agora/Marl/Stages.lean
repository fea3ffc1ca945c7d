import Agora.Marl.Verify

namespace Agora.Marl

/-!
# The stages of the verification

What each stage of `authenticate` lets through, as an equivalence, and what the whole lets
through (`authenticate_eq_ok`).  No early return counts as authentic
(`notAuthentic_authenticate`), so a bundle that `verifyBundle` reports as authentic went through
all the stages (`stages_of_integrityValid`).
-/

section Halting

variable {α β : Type}

/-! ### Successful stages -/

theorem ofPy_eq_ok {x : Py α} {a : α} : ofPy x = .ok a ↔ x = .ok a := by
  cases x with
  | ok b => simp [ofPy]
  | error e => simp [ofPy]

theorem catching_eq_ok {handler : PyException → Option ReplayVerificationV1} {x : Py α} {a : α} :
    catching handler x = .ok a ↔ x = .ok a := by
  cases x with
  | ok b => simp [catching]
  | error e =>
    rw [catching]
    cases handler e <;> simp

theorem returnIf_eq_ok {condition : Bool} {result : ReplayVerificationV1} :
    returnIf condition result = .ok () ↔ condition = false := by
  cases condition <;> simp [returnIf]

/-- What follows an `if condition: return result` runs when the condition is false. -/
theorem returnIf_bind_eq_ok {condition : Bool} {result : ReplayVerificationV1}
    {f : Unit → Verify α} {a : α} :
    (returnIf condition result >>= f) = .ok a ↔ condition = false ∧ f () = .ok a := by
  rw [Except.bind_eq_ok]
  constructor
  · rintro ⟨⟨⟩, hcondition, h⟩
    exact ⟨returnIf_eq_ok.mp hcondition, h⟩
  · rintro ⟨hcondition, h⟩
    exact ⟨(), returnIf_eq_ok.mpr hcondition, h⟩

/-- A loop that collects results over numbered elements. -/
theorem mapM_zipIdx_eq_ok {f : α × ℕ → Verify β} {R : α → β → Prop}
    (hf : ∀ x y, f x = .ok y ↔ R x.1 y) {l : List α} {ys : List β} :
    l.zipIdx.mapM f = .ok ys ↔ List.Forall₂ R l ys := by
  rw [Except.mapM_eq_ok_iff]
  simp only [hf]
  rw [← List.forall₂_map_left_iff (R := R) (f := Prod.fst), List.zipIdx_map_fst]

/-- A loop of checks over numbered elements. -/
theorem forM_zipIdx_eq_ok {f : α × ℕ → Verify Unit} {P : α → Prop}
    (hf : ∀ x, f x = .ok () ↔ P x.1) {l : List α} :
    forM l.zipIdx f = .ok () ↔ ∀ x ∈ l, P x := by
  rw [Except.forM_eq_ok_iff]
  simp only [hf]
  constructor
  · intro h x hx
    rw [← List.zipIdx_map_fst 0 l] at hx
    obtain ⟨y, hy, rfl⟩ := List.mem_map.mp hx
    exact h y hy
  · intro h x hx
    exact h x.1 (List.fst_mem_of_mem_zipIdx hx)

/-! ### Early returns -/

/-- A result that reports a bundle as not authentic. -/
def ReplayVerificationV1.Rejected (r : ReplayVerificationV1) : Prop :=
  r.integrityValid = false ∧ r.outcome = .failed

/-- Every result that the stage returns early reports the bundle as not authentic. -/
def NotAuthentic (x : Verify α) : Prop := ∀ r, x = .error (.returned r) → r.Rejected

namespace NotAuthentic

theorem ok (a : α) : NotAuthentic (.ok a : Verify α) := by
  intro r heq
  cases heq

theorem raised (e : PyException) : NotAuthentic (.error (.raised e) : Verify α) := by
  intro r heq
  cases heq

theorem returned {r : ReplayVerificationV1} (h : r.Rejected) :
    NotAuthentic (.error (.returned r) : Verify α) := by
  intro r' heq
  cases heq
  exact h

theorem bind {x : Verify α} {f : α → Verify β} (hx : NotAuthentic x)
    (hf : ∀ a, NotAuthentic (f a)) : NotAuthentic (x >>= f) := by
  intro r heq
  cases x with
  | ok a => exact hf a r heq
  | error halt =>
    cases heq
    exact hx r rfl

theorem ofPy (x : Py α) : NotAuthentic (Marl.ofPy x) := by
  cases x with
  | ok a => exact ok a
  | error e => exact raised e

theorem catching {handler : PyException → Option ReplayVerificationV1}
    (h : ∀ e, ∀ r ∈ handler e, r.Rejected) (x : Py α) :
    NotAuthentic (Marl.catching handler x) := by
  cases x with
  | ok a => exact ok a
  | error e =>
    rw [Marl.catching]
    split
    case h_1 r hr => exact returned (h e r hr)
    case h_2 => exact raised e

theorem onValueError {result : PyException → ReplayVerificationV1}
    (h : ∀ e, (result e).Rejected) (x : Py α) :
    NotAuthentic (Marl.catching (Marl.onValueError result) x) := by
  refine catching (fun e r hr => ?_) x
  rw [Marl.onValueError] at hr
  split at hr
  · cases hr
    exact h e
  · cases hr

theorem returnIf (condition : Bool) {result : ReplayVerificationV1}
    (h : result.Rejected) : NotAuthentic (Marl.returnIf condition result) := by
  rw [Marl.returnIf]
  split
  · exact returned h
  · exact ok ()

theorem mapM {f : α → Verify β} (hf : ∀ a, NotAuthentic (f a)) (l : List α) :
    NotAuthentic (l.mapM f) := by
  induction l with
  | nil => exact ok []
  | cons a l ih =>
    rw [List.mapM_cons]
    exact (hf a).bind fun b => ih.bind fun bs => ok (b :: bs)

theorem forM {f : α → Verify Unit} (hf : ∀ a, NotAuthentic (f a)) (l : List α) :
    NotAuthentic (ForM.forM l f) := by
  induction l with
  | nil => exact ok ()
  | cons a l ih =>
    rw [List.forM_cons]
    exact (hf a).bind fun _ => ih

end NotAuthentic

end Halting

/-! ### Reading the files -/

/-- The stage lets a file through whose text is within the limits and starts with no byte order
    mark. -/
theorem parseFile_eq_ok [Runtime] {data : Bytes} {file : BundleFile} {limits : BundleLimits}
    {value : Json} :
    parseFile data file limits = .ok value ↔ ∃ text, decodeUtf8 data = some text
      ∧ text.head? ≠ some '\uFEFF' ∧ Json.loads Runtime.recursionLimit text = .ok value
      ∧ depthAndSize limits 0 value = .ok () := by
  rw [parseFile]
  cases decodeUtf8 data with
  | none => simp
  | some text =>
    simp only [Option.some.injEq, exists_eq_left']
    rw [Except.bind_eq_ok]
    simp only [catching_eq_ok, returnIf_bind_eq_ok, decide_eq_false_iff_not, Except.pure_eq_ok,
      Except.ok.injEq]
    constructor
    · rintro ⟨w, hw, hbom, rfl⟩
      obtain ⟨v, hv, h⟩ := Except.bind_eq_ok.mp hw
      obtain ⟨⟨⟩, hdepth, h⟩ := Except.bind_eq_ok.mp h
      cases h
      rw [if_neg hbom] at hv
      exact ⟨hbom, hv, hdepth⟩
    · rintro ⟨hbom, hv, hdepth⟩
      refine ⟨value, ?_, hbom, rfl⟩
      rw [if_neg hbom, hv, Except.ok_bind, hdepth]
      rfl

theorem parseLine_eq_ok [Runtime] {limits : BundleLimits} {line : ℕ} {raw : Bytes} {value : Json} :
    parseLine limits line raw = .ok value ↔ parseFile raw .trajectory limits = .ok value := by
  rw [parseLine]
  split <;> rename_i heq <;> simp [heq]

theorem parseLines_eq_ok [Runtime] {trajectory : Bytes} {limits : BundleLimits}
    {raws : List Json} :
    parseLines trajectory limits = .ok raws ↔
      ((splitLines trajectory).length : ℤ) ≤ limits.maxRecords
        ∧ List.Forall₂ (fun line raw => parseFile line .trajectory limits = .ok raw)
          (splitLines trajectory) raws := by
  rw [parseLines, returnIf_bind_eq_ok, decide_eq_false_iff_not, not_lt,
    mapM_zipIdx_eq_ok (R := fun line raw => parseFile line .trajectory limits = .ok raw)
      fun _ _ => parseLine_eq_ok]

theorem checkVersions_eq_ok {value : Json} {raws : List Json} :
    checkVersions value raws = .ok () ↔
      versionUnsupported value = false ∧ ∀ raw ∈ raws, versionUnsupported raw = false := by
  rw [checkVersions, returnIf_bind_eq_ok,
    forM_zipIdx_eq_ok (P := fun raw => versionUnsupported raw = false) fun _ => returnIf_eq_ok]

/-! ### Schemas -/

section Schemas

variable [Runtime] {α : Type}

theorem modelValidateJson_eq_ok {c : Codec α} {data : Bytes} {a : α} :
    modelValidateJson c data = .ok a ↔ ∃ text value, decodeUtf8 data = some text
      ∧ Json.loads Runtime.recursionLimit text = .ok value ∧ c.load value = some a := by
  rw [modelValidateJson]
  cases decodeUtf8 data with
  | none => simp
  | some text =>
    rw [Option.map_some]
    constructor
    · intro h
      split at h
      case h_1 value hvalue =>
        split at h
        case h_1 b hload =>
          cases h
          exact ⟨text, value, rfl, Option.some.inj hvalue, hload⟩
        case h_2 => cases h
      case h_2 => cases h
    · rintro ⟨text, value, ⟨⟩, hvalue, hload⟩
      rw [hvalue]
      simp only [hload]

/-- What validates through its canonical text is loaded as the value with its keys sorted. -/
theorem load_of_validateRaw {c : Codec α} {raw : Json} {a : α} (hkeys : raw.uniqueKeys = true)
    (h : validateRaw c raw = .ok a) : raw.encodable = true ∧ c.load raw.normalize = some a := by
  obtain ⟨data, hdata, h⟩ := Except.bind_eq_ok.mp h
  obtain ⟨henc, rfl⟩ := Json.canonicalJson_eq_ok.mp hdata
  obtain ⟨text, value, htext, hvalue, hload⟩ := modelValidateJson_eq_ok.mp h
  rw [decodeUtf8_utf8] at htext
  cases htext
  have hcanonical : Json.loads Runtime.recursionLimit (raw.canonical ++ []) = .ok value := by
    rw [List.append_nil]
    exact hvalue
  rw [Json.eq_normalize_of_loads henc hkeys (.inl rfl) hcanonical] at hload
  exact ⟨henc, hload⟩

/-- A value that the parser can nest validates when it can be loaded. -/
theorem validateRaw_of_load {c : Codec α} {raw : Json} {a : α} (hnormal : raw.Normal = true)
    (henc : raw.encodable = true) (hdepth : raw.depth ≤ Runtime.recursionLimit)
    (h : c.load raw = some a) : validateRaw c raw = .ok a := by
  have hloads := Json.loads_canonical henc (Json.normal_iff.mp hnormal).1 hdepth
    (show [] = [] ∨ [] = ['\n'] from .inl rfl)
  rw [List.append_nil, Json.Normal.normalize_eq hnormal] at hloads
  rw [validateRaw, Json.canonicalJson_of_encodable henc, Except.ok_bind]
  exact modelValidateJson_eq_ok.mpr ⟨_, _, decodeUtf8_utf8 _, hloads, h⟩

theorem loadManifest_eq_ok {value : Json} {manifest : TrajectoryManifestV1} :
    loadManifest value = .ok manifest ↔
      (isObject value = true ∧ equalsOne (getKey "schema_version" value) = true)
        ∧ validateRaw TrajectoryManifestV1.codec value = .ok manifest := by
  rw [loadManifest, returnIf_bind_eq_ok, catching_eq_ok, Bool.or_eq_false_iff, Bool.not_eq_false',
    Bool.not_eq_false']

theorem loadRecord_eq_ok {raw : Json} {record : TrajectoryRecord} :
    loadRecord raw = .ok record ↔ isObject raw = true ∧ validateRecord raw = .ok record := by
  rw [loadRecord, returnIf_bind_eq_ok, catching_eq_ok, Bool.not_eq_false']

end Schemas

/-! ### Encodings, digest, order and references -/

section Checks

variable {manifestBytes trajectory : Bytes} {manifest : TrajectoryManifestV1}
  {raws : List Json} {records : List TrajectoryRecord}

theorem checkManifestEncoding_eq_ok [Runtime] :
    checkManifestEncoding manifestBytes manifest = .ok () ↔
      ∃ canonical, (TrajectoryManifestV1.codec.dump manifest).canonicalJson = .ok canonical
        ∧ manifestBytes = canonical ++ [10] := by
  rw [checkManifestEncoding, Except.bind_eq_ok]
  simp only [ofPy_eq_ok, returnIf_eq_ok, decide_eq_false_iff_not, not_not]

/-- The lines of a file are written when all the values have canonical text. -/
theorem jsonLines_eq_ok {values : List Json} {data : Bytes} :
    jsonLines values = .ok data ↔ (∀ j ∈ values, j.encodable = true)
      ∧ data = values.flatMap fun j => utf8 j.canonical ++ [10] := by
  rw [jsonLines, Except.bind_eq_ok]
  simp only [Except.mapM_eq_ok_iff, Json.canonicalJson_eq_ok]
  constructor
  · rintro ⟨lines, hlines, h⟩
    cases h
    induction hlines with
    | nil => simp
    | cons hline _ ih =>
      obtain ⟨henc, rfl⟩ := hline
      rw [List.forall_mem_cons, List.flatMap_cons, List.flatMap_cons, ih.2]
      exact ⟨⟨henc, ih.1⟩, rfl⟩
  · rintro ⟨henc, rfl⟩
    refine ⟨values.map fun j => utf8 j.canonical, ?_, ?_⟩
    · exact List.forall₂_map_right_iff.mpr (List.forall₂_same.mpr fun j hj => ⟨henc j hj, rfl⟩)
    · rw [List.flatMap_map]
      rfl

theorem checkTrajectoryEncoding_eq_ok [Runtime] :
    checkTrajectoryEncoding trajectory manifest raws = .ok () ↔
      (∀ line ∈ splitLines trajectory, line.getLast? = some 10)
        ∧ jsonLines raws = .ok trajectory := by
  rw [checkTrajectoryEncoding, returnIf_bind_eq_ok, Except.bind_eq_ok]
  simp only [ofPy_eq_ok, returnIf_eq_ok, decide_eq_false_iff_not, not_not, List.any_eq_false,
    decide_eq_true_eq, ne_eq]
  exact and_congr_right fun _ =>
    ⟨fun ⟨_, h, heq⟩ => heq ▸ h, fun h => ⟨trajectory, h, rfl⟩⟩

theorem checkDigest_eq_ok :
    checkDigest trajectory manifest records = .ok () ↔
      manifest.trajectorySha256 = sha256Hash trajectory
        ∧ manifest.trajectoryByteLength = trajectory.length
        ∧ manifest.recordCount = records.length := by
  rw [checkDigest, returnIf_eq_ok]
  simp only [Bool.or_eq_false_iff, decide_eq_false_iff_not, not_not, and_assoc]

theorem checkOrder_eq_ok : checkOrder manifest records = .ok () ↔ orderViolated records = false := by
  rw [checkOrder, returnIf_eq_ok]

theorem checkReferences_eq_ok :
    checkReferences manifest records = .ok () ↔
      (∀ id ∈ recordEpisodeIds records, id = manifest.episodeId)
        ∧ ∀ t ∈ transitionsOf records,
          t.content.boundary.content.observation.content.environmentVersion
              = manifest.environmentVersion
            ∧ t.content.postObservation.content.environmentVersion
              = manifest.environmentVersion := by
  rw [checkReferences, returnIf_bind_eq_ok, returnIf_eq_ok]
  simp only [List.any_eq_false, Bool.or_eq_true, decide_eq_true_eq, not_or, not_not, ne_eq]

theorem assemble_eq_ok {episode : MarlEpisodeV1} :
    assemble manifest records = .ok episode ↔
      ∃ first ∈ (transitionsOf records).head?,
        episode = episodeOf manifest first records ∧ episode.Valid := by
  rw [assemble]
  cases transitionsOf records with
  | nil => simp
  | cons first rest =>
    simp only [MarlEpisodeV1.validate, List.head?_cons, Option.mem_some_iff, exists_eq_left']
    constructor
    · intro h
      split at h
      · cases h
        exact ⟨rfl, by assumption⟩
      · cases h
    · rintro ⟨rfl, hvalid⟩
      rw [if_pos hvalid]

theorem buildEpisode_eq_ok {episode : MarlEpisodeV1} :
    buildEpisode manifest records = .ok episode ↔ assemble manifest records = .ok episode := by
  rw [buildEpisode, catching_eq_ok]

end Checks

/-! ### Authentication -/

section Authentication

variable [Runtime] {manifestBytes trajectory : Bytes} {entryNames : List String}
  {limits : BundleLimits} {registry : ImplementationRegistry} {a : Authenticated}
  {r : ReplayVerificationV1}

/-- The stages that an authentic bundle went through. -/
structure Stages (manifestBytes trajectory : Bytes) (entryNames : List String)
    (limits : BundleLimits) (a : Authenticated) : Prop where
  bundle : checkBundle manifestBytes trajectory entryNames limits = .ok ()
  manifest : ∃ value, parseFile manifestBytes .manifest limits = .ok value
    ∧ checkVersions value a.raws = .ok () ∧ loadManifest value = .ok a.manifest
  raws : parseLines trajectory limits = .ok a.raws
  records : a.raws.mapM loadRecord = .ok a.records
  manifestEncoding : checkManifestEncoding manifestBytes a.manifest = .ok ()
  trajectoryEncoding : checkTrajectoryEncoding trajectory a.manifest a.raws = .ok ()
  digest : checkDigest trajectory a.manifest a.records = .ok ()
  order : checkOrder a.manifest a.records = .ok ()
  hashes : checkHashes a.manifest (sha256Hash trajectory) a.records = .ok ()
  references : checkReferences a.manifest a.records = .ok ()
  episode : buildEpisode a.manifest a.records = .ok a.episode
  episodeHash : Marl.episodeHash a.episode = .ok a.episodeHash
  sameHash : a.episodeHash = a.manifest.episodeHash

/-- **Authentication.**  A bundle is authentic exactly when it passes every stage. -/
theorem authenticate_eq_ok :
    authenticate manifestBytes trajectory entryNames limits = .ok a
      ↔ Stages manifestBytes trajectory entryNames limits a := by
  rw [authenticate]
  simp only [Except.bind_eq_ok, ofPy_eq_ok, Except.pure_eq_ok, Except.ok.injEq]
  constructor
  · rintro ⟨⟨⟩, hbundle, value, hvalue, raws, hraws, ⟨⟩, hversions, manifest, hmanifest, records,
      hrecords, ⟨⟩, hmanifestEncoding, ⟨⟩, htrajectoryEncoding, ⟨⟩, hdigest, ⟨⟩, horder, ⟨⟩,
      hhashes, ⟨⟩, hreferences, episode, hepisode, hash, hhash, ⟨⟩, hsame, rfl⟩
    exact ⟨hbundle, ⟨value, hvalue, hversions, hmanifest⟩, hraws, hrecords, hmanifestEncoding,
      htrajectoryEncoding, hdigest, horder, hhashes, hreferences, hepisode, hhash,
      not_not.mp (of_decide_eq_false (returnIf_eq_ok.mp hsame))⟩
  · rintro ⟨hbundle, ⟨value, hvalue, hversions, hmanifest⟩, hraws, hrecords, hmanifestEncoding,
      htrajectoryEncoding, hdigest, horder, hhashes, hreferences, hepisode, hhash, hsame⟩
    exact ⟨(), hbundle, value, hvalue, _, hraws, (), hversions, _, hmanifest, _, hrecords, (),
      hmanifestEncoding, (), htrajectoryEncoding, (), hdigest, (), horder, (), hhashes, (),
      hreferences, _, hepisode, _, hhash, (),
      returnIf_eq_ok.mpr (decide_eq_false (not_not.mpr hsame)), rfl⟩

theorem notAuthentic_parseFile {data : Bytes} {file : BundleFile} :
    NotAuthentic (parseFile data file limits) := by
  rw [parseFile]
  split
  case h_1 => exact .returned ⟨rfl, rfl⟩
  case h_2 text =>
    refine (NotAuthentic.catching (fun e r hr => ?_) _).bind fun value =>
      (NotAuthentic.returnIf _ ⟨rfl, rfl⟩).bind fun _ => .ok value
    rw [onParseError] at hr
    split_ifs at hr <;> cases hr <;> exact ⟨rfl, rfl⟩

theorem notAuthentic_parseLine {line : ℕ} {raw : Bytes} :
    NotAuthentic (parseLine limits line raw) := by
  rw [parseLine]
  split
  case h_1 value _ => exact .ok value
  case h_2 result h => exact .returned (notAuthentic_parseFile result h)
  case h_3 e _ => exact .raised e

theorem notAuthentic_checkHashes {manifest : TrajectoryManifestV1} {actual : Hash}
    {records : List TrajectoryRecord} : NotAuthentic (checkHashes manifest actual records) := by
  rw [checkHashes]
  refine (NotAuthentic.forM (fun _ => .onValueError (fun _ => ⟨rfl, rfl⟩) _) _).bind fun _ => ?_
  split
  · exact .onValueError (fun _ => ⟨rfl, rfl⟩) _
  · exact .ok ()

/-- No stage returns a result that counts as authentic. -/
theorem notAuthentic_authenticate :
    NotAuthentic (authenticate manifestBytes trajectory entryNames limits) := by
  have hbundle : NotAuthentic (checkBundle manifestBytes trajectory entryNames limits) :=
    (NotAuthentic.returnIf _ ⟨rfl, rfl⟩).bind fun _ => .returnIf _ ⟨rfl, rfl⟩
  have hlines : NotAuthentic (parseLines trajectory limits) :=
    (NotAuthentic.returnIf _ ⟨rfl, rfl⟩).bind fun _ => .mapM (fun _ => notAuthentic_parseLine) _
  have hversions (value : Json) (raws : List Json) : NotAuthentic (checkVersions value raws) :=
    (NotAuthentic.returnIf _ ⟨rfl, rfl⟩).bind fun _ => .forM (fun _ => .returnIf _ ⟨rfl, rfl⟩) _
  have hmanifest (value : Json) : NotAuthentic (loadManifest value) :=
    (NotAuthentic.returnIf _ ⟨rfl, rfl⟩).bind fun _ => .onValueError (fun _ => ⟨rfl, rfl⟩) _
  have hrecord (raw : Json) : NotAuthentic (loadRecord raw) :=
    (NotAuthentic.returnIf _ ⟨rfl, rfl⟩).bind fun _ => .onValueError (fun _ => ⟨rfl, rfl⟩) _
  have hmanifestEncoding (manifest : TrajectoryManifestV1) :
      NotAuthentic (checkManifestEncoding manifestBytes manifest) :=
    (NotAuthentic.ofPy _).bind fun _ => .returnIf _ ⟨rfl, rfl⟩
  have htrajectoryEncoding (manifest : TrajectoryManifestV1) (raws : List Json) :
      NotAuthentic (checkTrajectoryEncoding trajectory manifest raws) :=
    (NotAuthentic.returnIf _ ⟨rfl, rfl⟩).bind fun _ =>
      (NotAuthentic.ofPy _).bind fun _ => .returnIf _ ⟨rfl, rfl⟩
  have hreferences (manifest : TrajectoryManifestV1) (records : List TrajectoryRecord) :
      NotAuthentic (checkReferences manifest records) :=
    (NotAuthentic.returnIf _ ⟨rfl, rfl⟩).bind fun _ => .returnIf _ ⟨rfl, rfl⟩
  have hepisode (manifest : TrajectoryManifestV1) (records : List TrajectoryRecord) :
      NotAuthentic (buildEpisode manifest records) := by
    refine .catching (fun e r hr => ?_) _
    split_ifs at hr <;> cases hr
    exact ⟨rfl, rfl⟩
  rw [authenticate]
  refine hbundle.bind fun _ => notAuthentic_parseFile.bind fun _ => hlines.bind fun _ =>
    (hversions _ _).bind fun _ => (hmanifest _).bind fun _ =>
    (NotAuthentic.mapM hrecord _).bind fun _ => (hmanifestEncoding _).bind fun _ =>
    (htrajectoryEncoding _ _).bind fun _ => ?_
  refine (NotAuthentic.returnIf _ ⟨rfl, rfl⟩).bind fun _ => (NotAuthentic.returnIf _ ⟨rfl, rfl⟩).bind fun _ =>
    notAuthentic_checkHashes.bind fun _ => (hreferences _ _).bind fun _ =>
    (hepisode _ _).bind fun _ => (NotAuthentic.ofPy _).bind fun _ =>
    (NotAuthentic.returnIf _ ⟨rfl, rfl⟩).bind fun _ => .ok _

/-- A bundle that is not rejected has been authenticated, and the result is that of the replay. -/
theorem authenticate_of_verifyBundle
    (h : verifyBundle manifestBytes trajectory registry entryNames limits = .ok r)
    (hr : ¬ r.Rejected) :
    ∃ a, authenticate manifestBytes trajectory entryNames limits = .ok a
      ∧ (replay registry trajectory a = .ok r
        ∨ replay registry trajectory a = .error (.returned r)) := by
  rw [verifyBundle] at h
  cases hauth : authenticate manifestBytes trajectory entryNames limits with
  | ok a =>
    rw [hauth, Except.ok_bind] at h
    refine ⟨a, rfl, ?_⟩
    split at h
    case h_1 result hresult =>
      cases h
      exact .inl hresult
    case h_2 result hresult =>
      cases h
      exact .inr hresult
    case h_3 => cases h
  | error halt =>
    rw [hauth, Except.error_bind] at h
    cases halt with
    | raised e => cases h
    | returned result =>
      cases h
      exact absurd (notAuthentic_authenticate r hauth) hr

/-- A bundle that is reported as authentic went through all the stages. -/
theorem stages_of_integrityValid
    (h : verifyBundle manifestBytes trajectory registry entryNames limits = .ok r)
    (hvalid : r.integrityValid = true) :
    ∃ a, authenticate manifestBytes trajectory entryNames limits = .ok a
      ∧ Stages manifestBytes trajectory entryNames limits a := by
  have hr : ¬ r.Rejected := by
    rintro ⟨hinvalid, -⟩
    rw [hvalid] at hinvalid
    cases hinvalid
  obtain ⟨a, ha, -⟩ := authenticate_of_verifyBundle h hr
  exact ⟨a, ha, authenticate_eq_ok.mp ha⟩

end Authentication

end Agora.Marl
