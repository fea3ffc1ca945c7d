import Agora.Marl.Encoding

namespace Agora.Marl

/-!
# Presenting an episode to the verifier

A manifest and the canonical lines of an episode's records pass the stages of the verification
when the manifest describes the episode (`Describes`), the files are within the limits
(`Within`), and the order, hash and reference checks pass (`stages_of_describes`).  No other reading
of the files does (`Stages.eq_of_describes`).
-/

/-! ### The records of an episode -/

section Records

variable (e : MarlEpisodeV1)

theorem transitionsOf_records : transitionsOf e.records = e.transitions := by
  simp [MarlEpisodeV1.records, transitionsOf, List.filterMap_append, List.filterMap_map]

theorem boundariesOf_records : boundariesOf e.records = e.pendingBoundary.toList := by
  simp [MarlEpisodeV1.records, boundariesOf, List.filterMap_append, List.filterMap_map]

theorem markersOf_records : markersOf e.records = e.incompleteMarker.toList := by
  simp [MarlEpisodeV1.records, markersOf, List.filterMap_append, List.filterMap_map]

/-- The records of an episode are in order when the indices are gapless, the pending boundary is
    next and comes with a marker. -/
theorem orderViolated_records :
    orderViolated e.records = false ↔
      e.transitions.map (·.content.decisionIndex) = List.range e.transitions.length
        ∧ (∀ b ∈ e.pendingBoundary, b.content.decisionIndex = e.transitions.length)
        ∧ (e.pendingBoundary.isSome → e.incompleteMarker.isSome) := by
  rw [orderViolated, transitionsOf_records, boundariesOf_records, markersOf_records]
  cases hpending : e.pendingBoundary with
  | none =>
    cases hmarker : e.incompleteMarker with
    | none => simp
    | some m => simp [endsWithMarker, MarlEpisodeV1.records, hpending, hmarker]
  | some b =>
    cases hmarker : e.incompleteMarker with
    | none => simp
    | some m =>
      simp [endsWithMarker, endsWithBoundary, MarlEpisodeV1.records, hpending, hmarker]

theorem recordEpisodeIds_records (id : UUID) :
    (∀ i ∈ recordEpisodeIds e.records, i = id) ↔
      (∀ t ∈ e.transitions, t.content.episodeId = id)
        ∧ (∀ b ∈ e.pendingBoundary, b.content.episodeId = id)
        ∧ ∀ m ∈ e.incompleteMarker, m.content.episodeId = id := by
  rw [recordEpisodeIds, transitionsOf_records, boundariesOf_records, markersOf_records]
  simp only [List.forall_mem_append, List.forall_mem_map, Option.mem_toList, Option.mem_def,
    and_assoc]

end Records

variable [Runtime]

/-! ### Files within limits -/

/-- The value is within the limits of the bundle and of the parser. -/
structure Fits (limits : BundleLimits) (j : Json) : Prop where
  size : depthAndSize limits 0 j = .ok ()
  depth : j.depth ≤ Runtime.recursionLimit

/-- The line of a value that fits is read as the value. -/
theorem parseFile_lineOf {j : Json} {file : BundleFile} {limits : BundleLimits}
    (henc : j.encodable = true) (hnormal : j.Normal = true) (hfits : Fits limits j) :
    parseFile (lineOf j) file limits = .ok j := by
  refine parseFile_eq_ok.mpr ⟨_, decodeUtf8_lineOf j, ?_, ?_, hfits.size⟩
  · obtain ⟨c, cs, hcs, hopen⟩ := Json.canonical_eq_cons henc
    rw [hcs, List.cons_append, List.head?_cons, ne_eq, Option.some.injEq]
    exact hopen.2.2.2
  · rw [Json.loads_canonical henc (Json.normal_iff.mp hnormal).1 hfits.depth (.inr rfl),
      Json.Normal.normalize_eq hnormal]

/-- The two files and the values on their lines are within the limits. -/
structure Within (limits : BundleLimits) (manifest : TrajectoryManifestV1) (e : MarlEpisodeV1)
    (manifestBytes trajectory : Bytes) : Prop where
  manifestBytes : (manifestBytes.length : ℤ) ≤ limits.maxManifestBytes
  trajectoryBytes : (trajectory.length : ℤ) ≤ limits.maxTrajectoryBytes
  records : (e.records.length : ℤ) ≤ limits.maxRecords
  manifest : Fits limits (TrajectoryManifestV1.codec.dump manifest)
  lines : ∀ record ∈ e.records, Fits limits (TrajectoryRecord.codec.dump record)

/-! ### Manifests that describe an episode -/

/-- The manifest agrees with the episode and its trajectory file.  Nothing is said about its lists
    of implementations. -/
structure Describes (manifest : TrajectoryManifestV1) (e : MarlEpisodeV1) (trajectory : Bytes) :
    Prop where
  episodeId : manifest.episodeId = e.episodeId
  status : manifest.episodeStatus = e.status
  environmentVersion : manifest.environmentVersion = e.environmentVersion
  codeIdentity : manifest.codeIdentity = e.codeIdentity
  sha256 : manifest.trajectorySha256 = sha256Hash trajectory
  byteLength : manifest.trajectoryByteLength = trajectory.length
  recordCount : manifest.recordCount = e.records.length
  episodeHash : Marl.episodeHash e = .ok manifest.episodeHash

theorem describes_exportManifest {e : MarlEpisodeV1} {trajectory : Bytes} {hash : Hash}
    (h : episodeHash e = .ok hash) : Describes (exportManifest e trajectory hash) e trajectory :=
  ⟨rfl, rfl, rfl, rfl, rfl, rfl, rfl, h⟩

/-- The lists of implementations do not matter. -/
theorem Describes.withCredits {manifest : TrajectoryManifestV1} {e : MarlEpisodeV1}
    {trajectory : Bytes} (h : Describes manifest e trajectory) (l : List ImplementationRefV1) :
    Describes { manifest with creditImplementations := l } e trajectory :=
  ⟨h.episodeId, h.status, h.environmentVersion, h.codeIdentity, h.sha256, h.byteLength,
    h.recordCount, h.episodeHash⟩

section Described

variable {manifest : TrajectoryManifestV1} {e : MarlEpisodeV1} {canonical trajectory : Bytes}
  {limits : BundleLimits} {a : Authenticated}

/-- The episode that the verifier puts together is the described one. -/
theorem episodeOf_records (hdescribes : Describes manifest e trajectory) (hvalid : e.Valid)
    {first : TransitionV1} (hfirst : first ∈ e.transitions.head?) :
    episodeOf manifest first e.records = e := by
  obtain ⟨hworkspace, hsession⟩ := (hvalid.scope first (List.mem_of_mem_head? hfirst)).1
  rw [episodeOf, hdescribes.episodeId, hdescribes.status, hdescribes.environmentVersion,
    hdescribes.codeIdentity, transitionsOf_records, boundariesOf_records, markersOf_records,
    hworkspace, hsession]
  cases e with
  | mk id workspace session environment code status transitions pending marker =>
    cases pending <;> cases marker <;> rfl

/-- How the verifier reads the files of the episode. -/
def presented (manifest : TrajectoryManifestV1) (e : MarlEpisodeV1) : Authenticated where
  manifest := manifest
  raws := e.records.map TrajectoryRecord.codec.dump
  records := e.records
  episode := e
  episodeHash := manifest.episodeHash

theorem getKey_schemaVersion_record (record : TrajectoryRecord) :
    getKey "schema_version" (TrajectoryRecord.codec.dump record) = .int 1 := by
  cases record with
  | transition t =>
    show getKey "schema_version" (Hashed.codec.dump t) = _
    rw [Hashed.codec_dump]
    simp only [HashedModel.before, HashedModel.after, HashedModel.hashField, Fields.dump_one,
      Fields.dump_field, Fields.dump_constant, Fields.dump_schemaVersion]
    rfl
  | boundary b =>
    show getKey "schema_version" (Hashed.codec.dump b) = _
    rw [Hashed.codec_dump]
    simp only [HashedModel.before, HashedModel.after, HashedModel.hashField, Fields.dump_one,
      Fields.dump_nil, Fields.dump_field, Fields.dump_constant, Fields.dump_schemaVersion]
    rfl
  | incomplete m =>
    show getKey "schema_version" (Hashed.codec.dump m) = _
    rw [Hashed.codec_dump]
    simp only [HashedModel.before, HashedModel.after, HashedModel.hashField, Fields.dump_one,
      Fields.dump_field, Fields.dump_constant, Fields.dump_schemaVersion]
    rfl

theorem getKey_schemaVersion_manifest :
    getKey "schema_version" (TrajectoryManifestV1.codec.dump manifest) = .int 1 := by
  rfl

theorem isObject_record (record : TrajectoryRecord) :
    isObject (TrajectoryRecord.codec.dump record) = true := by
  cases record <;> rfl

theorem isObject_manifest : isObject (TrajectoryManifestV1.codec.dump manifest) = true := rfl

omit [Runtime] in
theorem versionUnsupported_eq_false {value : Json} (h : getKey "schema_version" value = .int 1) :
    versionUnsupported value = false := by
  rw [versionUnsupported, h]
  rfl

/-- **Presentation.**  The files of a described episode pass the stages when the checks of order,
    hashes and references do. -/
theorem stages_of_describes (hdescribes : Describes manifest e trajectory) (hvalid : e.Valid)
    (hclosed : e.transitions ≠ [])
    (hcanonical : (TrajectoryManifestV1.codec.dump manifest).canonicalJson = .ok canonical)
    (hlines : jsonLines (e.records.map TrajectoryRecord.codec.dump) = .ok trajectory)
    (hwithin : Within limits manifest e (canonical ++ [10]) trajectory)
    (horder : orderViolated e.records = false)
    (hhashes : checkHashes manifest (sha256Hash trajectory) e.records = .ok ())
    (hreferences : checkReferences manifest e.records = .ok ()) :
    Stages (canonical ++ [10]) trajectory [manifestFile, trajectoryFile] limits
      (presented manifest e) := by
  obtain ⟨hmanifestEnc, rfl⟩ := Json.canonicalJson_eq_ok.mp hcanonical
  obtain ⟨henc, htrajectory⟩ := jsonLines_eq_ok.mp hlines
  have hsplit : splitLines trajectory
      = (e.records.map TrajectoryRecord.codec.dump).map lineOf := by
    rw [htrajectory]
    exact splitLines_flatMap_lineOf _ henc
  have hnormal := TrajectoryManifestV1.codec.normal_dump manifest
  have hvalidated : validateRaw TrajectoryManifestV1.codec
      (TrajectoryManifestV1.codec.dump manifest) = .ok manifest :=
    validateRaw_of_load hnormal hmanifestEnc hwithin.manifest.depth
      (TrajectoryManifestV1.codec.load_dump manifest)
  obtain ⟨first, rest, hfirst⟩ := List.exists_cons_of_ne_nil hclosed
  have hhead : first ∈ e.transitions.head? := by
    rw [hfirst]
    rfl
  exact
    { bundle := by
        rw [checkBundle, returnIf_bind_eq_ok, returnIf_eq_ok, decide_eq_false_iff_not,
          decide_eq_false_iff_not]
        refine ⟨fun h => h.1 rfl, fun h => ?_⟩
        rcases h with h | h
        · exact absurd hwithin.manifestBytes (not_le.mpr h)
        · exact absurd hwithin.trajectoryBytes (not_le.mpr h)
      manifest := by
        refine ⟨_, parseFile_lineOf hmanifestEnc hnormal hwithin.manifest, ?_, ?_⟩
        · refine checkVersions_eq_ok.mpr
            ⟨versionUnsupported_eq_false getKey_schemaVersion_manifest, fun raw hraw => ?_⟩
          obtain ⟨record, -, rfl⟩ := List.mem_map.mp hraw
          exact versionUnsupported_eq_false (getKey_schemaVersion_record record)
        · exact loadManifest_eq_ok.mpr
            ⟨⟨isObject_manifest, by rw [getKey_schemaVersion_manifest]; rfl⟩, hvalidated⟩
      raws := by
        rw [parseLines_eq_ok, hsplit, List.length_map, List.length_map,
          List.forall₂_map_left_iff]
        refine ⟨hwithin.records, List.forall₂_same.mpr fun raw hraw => ?_⟩
        obtain ⟨record, hrecord, rfl⟩ := List.mem_map.mp hraw
        exact parseFile_lineOf (henc _ hraw) (TrajectoryRecord.codec.normal_dump record)
          (hwithin.lines record hrecord)
      records := by
        rw [Except.mapM_eq_ok_iff]
        refine List.forall₂_map_left_iff.mpr (List.forall₂_same.mpr fun record hrecord => ?_)
        refine loadRecord_eq_ok.mpr ⟨isObject_record record, ?_⟩
        exact validateRecord_of_load (TrajectoryRecord.codec.normal_dump record)
          (henc _ (List.mem_map_of_mem hrecord)) (hwithin.lines record hrecord).depth
          (TrajectoryRecord.codec.load_dump record)
      manifestEncoding := checkManifestEncoding_eq_ok.mpr ⟨_, hcanonical, rfl⟩
      trajectoryEncoding := by
        refine checkTrajectoryEncoding_eq_ok.mpr ⟨fun line hline => ?_, hlines⟩
        rw [hsplit] at hline
        obtain ⟨raw, -, rfl⟩ := List.mem_map.mp hline
        exact List.getLast?_concat
      digest := checkDigest_eq_ok.mpr
        ⟨hdescribes.sha256, hdescribes.byteLength, hdescribes.recordCount⟩
      order := checkOrder_eq_ok.mpr horder
      hashes := hhashes
      references := hreferences
      episode := by
        refine buildEpisode_eq_ok.mpr (assemble_eq_ok.mpr ⟨first, ?_, ?_, hvalid⟩)
        · show first ∈ (transitionsOf e.records).head?
          rw [transitionsOf_records]
          exact hhead
        · exact (episodeOf_records hdescribes hvalid hhead).symm
      episodeHash := hdescribes.episodeHash
      sameHash := rfl }

end Described

end Agora.Marl
