import Agora.Marl.Stages
import Mathlib.Data.List.Dedup

namespace Agora.Marl

/-!
# Authentic bundles and canonical exports

The lines of an authentic trajectory are canonical text of the raw values
(`Stages.isLine`), its records are in the order of an export (`Stages.records_eq`), and its
manifest is the canonical text of what is read from it.  What an export has beyond that is
compared in `Stages.export_iff`.
-/

variable [Runtime]

/-! ### Reading records -/

theorem getKey_recordType_transition (t : TransitionV1) :
    getKey "record_type" (Hashed.codec.dump t) = Json.text "transition" := by
  rw [Hashed.codec_dump]
  simp only [HashedModel.before, HashedModel.after, HashedModel.hashField, Fields.dump_one,
    Fields.dump_field, Fields.dump_constant, Fields.dump_schemaVersion]
  rfl

theorem getKey_recordType_boundary (b : DecisionBoundaryV1) :
    getKey "record_type" (Hashed.codec.dump b) = Json.text "decision_boundary" := by
  rw [Hashed.codec_dump]
  simp only [HashedModel.before, HashedModel.after, HashedModel.hashField, Fields.dump_one,
    Fields.dump_nil, Fields.dump_field, Fields.dump_constant, Fields.dump_schemaVersion]
  rfl

theorem getKey_recordType_incomplete (m : IncompleteMarkerV1) :
    getKey "record_type" (Hashed.codec.dump m) = Json.text "incomplete" := by
  rw [Hashed.codec_dump]
  simp only [HashedModel.before, HashedModel.after, HashedModel.hashField, Fields.dump_one,
    Fields.dump_field, Fields.dump_constant, Fields.dump_schemaVersion]
  rfl

omit [Runtime] in
theorem recordTypeIs_eq {name name' : String} {raw : Json}
    (h : getKey "record_type" raw = Json.text name') :
    recordTypeIs name raw = decide (name' = name) := by
  rw [recordTypeIs, h]
  simp only [Json.text, decide_eq_decide]
  exact PyStr.ofString_injective.eq_iff

/-- The codec of a record, which picks the model by the record type. -/
def TrajectoryRecord.codec : Codec TrajectoryRecord where
  dump := TrajectoryRecord.dump
  load raw :=
    if recordTypeIs "incomplete" raw then (Hashed.codec.load raw).map .incomplete
    else if recordTypeIs "decision_boundary" raw then (Hashed.codec.load raw).map .boundary
    else (Hashed.codec.load raw).map .transition
  explicit raw :=
    if recordTypeIs "incomplete" raw then (Hashed.codec (C := IncompleteMarker)).explicit raw
    else if recordTypeIs "decision_boundary" raw then
      (Hashed.codec (C := DecisionBoundary)).explicit raw
    else (Hashed.codec (C := Transition)).explicit raw
  normal_dump
    | .transition t => Hashed.codec.normal_dump t
    | .boundary b => Hashed.codec.normal_dump b
    | .incomplete m => Hashed.codec.normal_dump m
  load_dump
    | .transition t => by
      have h := getKey_recordType_transition t
      simp only [TrajectoryRecord.dump, recordTypeIs_eq h, Hashed.codec.load_dump]
      rfl
    | .boundary b => by
      have h := getKey_recordType_boundary b
      simp only [TrajectoryRecord.dump, recordTypeIs_eq h, Hashed.codec.load_dump]
      rfl
    | .incomplete m => by
      have h := getKey_recordType_incomplete m
      simp only [TrajectoryRecord.dump, recordTypeIs_eq h, Hashed.codec.load_dump]
      rfl
  explicit_iff {raw record} h := by
    split_ifs at h ⊢
    all_goals
      obtain ⟨x, hx, rfl⟩ := Option.map_eq_some_iff.mp h
      exact Hashed.codec.explicit_iff hx

theorem load_of_validateRecord {raw : Json} {record : TrajectoryRecord}
    (hnormal : raw.Normal = true) (h : validateRecord raw = .ok record) :
    TrajectoryRecord.codec.load raw = some record := by
  rw [validateRecord] at h
  simp only [TrajectoryRecord.codec]
  split_ifs at h ⊢
  all_goals
    obtain ⟨x, hx, rfl⟩ := Except.map_eq_ok.mp h
    have hload := (load_of_validateRaw (Json.normal_iff.mp hnormal).1 hx).2
    rw [Json.Normal.normalize_eq hnormal] at hload
    rw [hload, Option.map_some]

theorem validateRecord_of_load {raw : Json} {record : TrajectoryRecord}
    (hnormal : raw.Normal = true) (henc : raw.encodable = true)
    (hdepth : raw.depth ≤ Runtime.recursionLimit)
    (h : TrajectoryRecord.codec.load raw = some record) : validateRecord raw = .ok record := by
  simp only [TrajectoryRecord.codec] at h
  rw [validateRecord]
  split_ifs at h ⊢
  all_goals
    obtain ⟨x, hx, rfl⟩ := Option.map_eq_some_iff.mp h
    exact Except.map_eq_ok.mpr ⟨x, validateRaw_of_load hnormal henc hdepth hx, rfl⟩

/-! ### The lines of an authentic trajectory -/

/-- A raw value whose canonical text is a line of the trajectory, and the record read from it. -/
structure IsLine (raw : Json) (record : TrajectoryRecord) : Prop where
  normal : raw.Normal = true
  encodable : raw.encodable = true
  load : TrajectoryRecord.codec.load raw = some record

/-- The bytes of a line. -/
def lineOf (j : Json) : Bytes := utf8 j.canonical ++ [10]

omit [Runtime] in
theorem splitLines_flatMap_lineOf (raws : List Json) (henc : ∀ j ∈ raws, j.encodable = true) :
    splitLines (raws.flatMap lineOf) = raws.map lineOf := by
  have hfree : ∀ line ∈ raws.map fun j => utf8 j.canonical, LineBreakFree line := by
    intro line hline
    obtain ⟨j, hj, rfl⟩ := List.mem_map.mp hline
    exact Json.lineBreakFree_canonicalJson (Json.canonicalJson_of_encodable (henc j hj))
  have hsplit := splitLines_join hfree
  rw [List.flatMap_map, List.map_map] at hsplit
  exact hsplit

omit [Runtime] in
theorem decodeUtf8_lineOf (j : Json) : decodeUtf8 (lineOf j) = some (j.canonical ++ ['\n']) := by
  have hbytes : lineOf j = utf8 (j.canonical ++ ['\n']) := by
    rw [utf8_append]
    rfl
  rw [hbytes, decodeUtf8_utf8]

/-- A value that is read back from its own canonical line is normal. -/
theorem normal_of_parseFile_lineOf {j : Json} {file : BundleFile} {limits : BundleLimits}
    (henc : j.encodable = true) (h : parseFile (lineOf j) file limits = .ok j) :
    j.Normal = true := by
  obtain ⟨text, htext, -, hloads, -⟩ := parseFile_eq_ok.mp h
  rw [decodeUtf8_lineOf] at htext
  cases htext
  have hkeys := Json.uniqueKeys_of_loads hloads
  rw [Json.eq_normalize_of_loads henc hkeys (.inr rfl) hloads]
  exact Json.normal_normalize hkeys

variable {manifestBytes trajectory : Bytes} {entryNames : List String} {limits : BundleLimits}
  {a : Authenticated}

theorem Stages.trajectory_eq (h : Stages manifestBytes trajectory entryNames limits a) :
    trajectory = a.raws.flatMap lineOf :=
  (jsonLines_eq_ok.mp (checkTrajectoryEncoding_eq_ok.mp h.trajectoryEncoding).2).2

/-- **Lines.**  An authentic trajectory consists of the canonical lines of its raw values. -/
theorem Stages.isLine (h : Stages manifestBytes trajectory entryNames limits a) :
    List.Forall₂ IsLine a.raws a.records := by
  have henc := (jsonLines_eq_ok.mp (checkTrajectoryEncoding_eq_ok.mp h.trajectoryEncoding).2).1
  have hparse := (parseLines_eq_ok.mp h.raws).2
  rw [h.trajectory_eq, splitLines_flatMap_lineOf _ henc, List.forall₂_map_left_iff,
    List.forall₂_same] at hparse
  obtain ⟨hlength, hrecords⟩ := List.forall₂_iff_zip.mp (Except.mapM_eq_ok_iff.mp h.records)
  refine List.forall₂_iff_zip.mpr ⟨hlength, fun {raw record} hmem => ?_⟩
  have hraw := (List.of_mem_zip hmem).1
  have hnormal := normal_of_parseFile_lineOf (henc raw hraw) (hparse raw hraw)
  exact ⟨hnormal, henc raw hraw,
    load_of_validateRecord hnormal (loadRecord_eq_ok.mp (hrecords hmem)).2⟩

/-! ### The order of the records -/

section Order

variable {records : List TrajectoryRecord}

omit [Runtime] in
theorem records_eq_transitions (hboundaries : boundariesOf records = [])
    (hmarkers : markersOf records = []) :
    records = (transitionsOf records).map .transition := by
  induction records with
  | nil => rfl
  | cons record records ih =>
    cases record with
    | transition t => exact congrArg (TrajectoryRecord.transition t :: ·) (ih hboundaries hmarkers)
    | boundary b => cases hboundaries
    | incomplete m => cases hmarkers

omit [Runtime] in
theorem eq_append_of_endsWithMarker (h : endsWithMarker records = true) :
    ∃ init m, records = init ++ [.incomplete m] := by
  rw [endsWithMarker] at h
  split at h
  case h_1 m rest heq =>
    exact ⟨rest.reverse, m, by rw [← List.reverse_reverse records, heq, List.reverse_cons]⟩
  case h_2 => cases h

omit [Runtime] in
theorem eq_append_of_endsWithBoundary (h : endsWithBoundary records = true) :
    ∃ init b m, records = init ++ [.boundary b, .incomplete m] := by
  rw [endsWithBoundary] at h
  split at h
  case h_1 m b rest heq =>
    refine ⟨rest.reverse, b, m, ?_⟩
    rw [← List.reverse_reverse records, heq, List.reverse_cons, List.reverse_cons,
      List.append_assoc]
    rfl
  case h_2 => cases h

omit [Runtime] in
/-- Records that pass the order check are in file order: transitions, boundary, marker. -/
theorem records_eq_of_order (h : orderViolated records = false) :
    records = (transitionsOf records).map .transition
      ++ (boundariesOf records).head?.toList.map .boundary
      ++ (markersOf records).head?.toList.map .incomplete := by
  simp only [orderViolated, Bool.or_eq_false_iff, decide_eq_false_iff_not, not_lt,
    Bool.and_eq_false_iff, Bool.not_eq_false', List.isEmpty_iff] at h
  obtain ⟨⟨⟨⟨⟨-, hboundaries⟩, hmarkers⟩, -⟩, hends⟩, hlast⟩ := h
  -- A boundary needs a marker behind it, so the cases are: neither, a marker, and both.
  by_cases hb : boundariesOf records = []
  · by_cases hm : markersOf records = []
    · have htransitions := records_eq_transitions hb hm
      rw [hb, hm, List.head?_nil, List.head?_nil, Option.toList_none, Option.toList_none,
        List.map_nil, List.map_nil, List.append_nil, List.append_nil]
      exact htransitions
    · obtain ⟨init, m, rfl⟩ := eq_append_of_endsWithMarker (hlast.resolve_left hm)
      have hmarkers' : markersOf (init ++ [.incomplete m]) = markersOf init ++ [m] :=
        List.filterMap_append
      have hboundaries' : boundariesOf (init ++ [.incomplete m]) = boundariesOf init ++ [] :=
        List.filterMap_append
      have htransitions' : transitionsOf (init ++ [.incomplete m]) = transitionsOf init ++ [] :=
        List.filterMap_append
      rw [hmarkers', List.length_append, List.length_singleton] at hmarkers
      have hinit : markersOf init = [] := List.length_eq_zero_iff.mp (by omega)
      rw [List.append_nil] at hboundaries' htransitions'
      rw [hboundaries'] at hb
      rw [hboundaries', htransitions', hmarkers', hb, hinit, ← records_eq_transitions hb hinit]
      simp
  · obtain ⟨init, b, m, rfl⟩ := eq_append_of_endsWithBoundary (hends.resolve_left hb).2
    have hmarkers' : markersOf (init ++ [.boundary b, .incomplete m]) = markersOf init ++ [m] :=
      List.filterMap_append
    have hboundaries' : boundariesOf (init ++ [.boundary b, .incomplete m])
        = boundariesOf init ++ [b] := List.filterMap_append
    have htransitions' : transitionsOf (init ++ [.boundary b, .incomplete m])
        = transitionsOf init ++ [] := List.filterMap_append
    rw [hmarkers', List.length_append, List.length_singleton] at hmarkers
    rw [hboundaries', List.length_append, List.length_singleton] at hboundaries
    have hmarkerless : markersOf init = [] := List.length_eq_zero_iff.mp (by omega)
    have hboundaryless : boundariesOf init = [] := List.length_eq_zero_iff.mp (by omega)
    rw [List.append_nil] at htransitions'
    rw [hboundaries', htransitions', hmarkers', hmarkerless, hboundaryless,
      ← records_eq_transitions hboundaryless hmarkerless]
    simp

end Order

/-- The records of the reconstructed episode are the records of the trajectory. -/
theorem Stages.records_eq (h : Stages manifestBytes trajectory entryNames limits a) :
    a.episode.records = a.records := by
  obtain ⟨first, -, hepisode, -⟩ := assemble_eq_ok.mp (buildEpisode_eq_ok.mp h.episode)
  rw [hepisode]
  exact (records_eq_of_order (checkOrder_eq_ok.mp h.order)).symm

/-! ### Exports -/

theorem exportEpisode_eq_ok {e : MarlEpisodeV1} {bundle : CanonicalTrajectoryBundle} :
    exportEpisode e = .ok bundle ↔ e.status ≠ .open
      ∧ jsonLines (e.records.map (·.dump)) = .ok bundle.trajectory
      ∧ ∃ hash manifest, episodeHash e = .ok hash
        ∧ (TrajectoryManifestV1.codec.dump
            (exportManifest e bundle.trajectory hash)).canonicalJson = .ok manifest
        ∧ bundle.manifest = manifest ++ [10] := by
  rw [exportEpisode]
  by_cases hopen : e.status = .open
  · rw [if_pos hopen]
    simp [hopen]
  · rw [if_neg hopen]
    simp only [Except.bind_eq_ok, Except.pure_eq_ok, Except.ok.injEq]
    constructor
    · rintro ⟨trajectory, htrajectory, hash, hhash, manifest, hmanifest, rfl⟩
      exact ⟨hopen, htrajectory, hash, manifest, hhash, hmanifest, rfl⟩
    · rintro ⟨-, htrajectory, hash, manifest, hhash, hmanifest, hbundle⟩
      refine ⟨bundle.trajectory, htrajectory, hash, hhash, manifest, hmanifest, ?_⟩
      rw [← hbundle]

/-- The list names the implementations that the transitions use, in order and each once. -/
structure ListsRefs (l : List ImplementationRefV1) (transitions : List TransitionV1)
    (of : RefAttribute) : Prop where
  sorted : l.Pairwise RefLe
  nodup : l.Nodup
  mem_iff : ∀ ref, ref ∈ l ↔ ∃ t ∈ transitions, ref ∈ t.content.refs of

omit [Runtime] in
theorem refLe_antisymm {r s : ImplementationRefV1} (hrs : RefLe r s) (hsr : RefLe s r) : r = s := by
  obtain ⟨⟨rid, _⟩, ⟨rversion, _⟩⟩ := r
  obtain ⟨⟨sid, _⟩, ⟨sversion, _⟩⟩ := s
  simp only [RefLe] at hrs hsr
  rcases hrs with hlt | ⟨rfl, hle⟩
  · rcases hsr with hgt | ⟨heq, -⟩
    · exact absurd hgt (lt_asymm hlt)
    · exact absurd heq.symm hlt.ne
  · rcases hsr with hgt | ⟨-, hge⟩
    · exact absurd hgt (lt_irrefl _)
    · cases le_antisymm hle hge
      rfl

omit [Runtime] in
theorem listsRefs_uniqueRefs (e : MarlEpisodeV1) (of : RefAttribute) :
    ListsRefs (uniqueRefs e of) e.transitions of := by
  have hperm : (uniqueRefs e of).Perm
      (e.transitions.flatMap fun t => t.content.refs of).dedup := List.perm_insertionSort _ _
  refine ⟨?_, hperm.nodup_iff.mpr (List.nodup_dedup _), fun ref => ?_⟩
  · have : Std.Total (α := ImplementationRefV1) RefLe := ⟨fun r s => by
      simp only [RefLe]
      rcases lt_trichotomy r.implementationId.text s.implementationId.text with h | h | h
      · exact .inl (.inl h)
      · rcases le_total r.implementationVersion.text s.implementationVersion.text with h' | h'
        · exact .inl (.inr ⟨h, h'⟩)
        · exact .inr (.inr ⟨h.symm, h'⟩)
      · exact .inr (.inl h)⟩
    have : IsTrans ImplementationRefV1 RefLe := ⟨fun r s t hrs hst => by
      simp only [RefLe] at hrs hst ⊢
      rcases hrs with h | ⟨h, hle⟩ <;> rcases hst with h' | ⟨h', hle'⟩
      · exact .inl (h.trans h')
      · exact .inl (h' ▸ h)
      · exact .inl (h ▸ h')
      · exact .inr ⟨h.trans h', hle.trans hle'⟩⟩
    exact List.pairwise_insertionSort RefLe _
  · rw [hperm.mem_iff, List.mem_dedup, List.mem_flatMap]

omit [Runtime] in
/-- `_unique_refs` computes the one list that names the implementations in order. -/
theorem eq_uniqueRefs_iff {l : List ImplementationRefV1} {e : MarlEpisodeV1} {of : RefAttribute} :
    l = uniqueRefs e of ↔ ListsRefs l e.transitions of := by
  have hrefs := listsRefs_uniqueRefs e of
  constructor
  · rintro rfl
    exact hrefs
  · intro h
    have hperm : l.Perm (uniqueRefs e of) :=
      (List.perm_ext_iff_of_nodup h.nodup hrefs.nodup).mpr fun ref =>
        (h.mem_iff ref).trans (hrefs.mem_iff ref).symm
    exact hperm.eq_of_pairwise (fun _ _ _ _ => refLe_antisymm) h.sorted hrefs.sorted

/-- The implementations that a manifest lists. -/
def TrajectoryManifestV1.refs (m : TrajectoryManifestV1) : RefAttribute → List ImplementationRefV1
  | .observation => m.observationImplementations
  | .reward => m.rewardImplementations
  | .credit => m.creditImplementations
  | .coordinator => m.coordinatorImplementations

/-- A bundle in the form of an export: the episode is closed, no line leaves out a defaulted field
    or spells a value differently, and the manifest lists the implementations in use. -/
structure ExportForm (a : Authenticated) : Prop where
  closed : a.manifest.episodeStatus ≠ .open
  explicit : ∀ raw ∈ a.raws, TrajectoryRecord.codec.explicit raw = true
  refs : ∀ of, ListsRefs (a.manifest.refs of) (transitionsOf a.records) of

omit [Runtime] in
/-- The lines of a file determine their values. -/
theorem flatMap_lineOf_injective {raws raws' : List Json}
    (henc : ∀ j ∈ raws, j.encodable = true ∧ j.Normal = true)
    (henc' : ∀ j ∈ raws', j.encodable = true ∧ j.Normal = true)
    (h : raws.flatMap lineOf = raws'.flatMap lineOf) : raws = raws' := by
  have hsplit := congrArg splitLines h
  rw [splitLines_flatMap_lineOf _ fun j hj => (henc j hj).1,
    splitLines_flatMap_lineOf _ fun j hj => (henc' j hj).1] at hsplit
  have hforall : List.Forall₂ (fun j j' => lineOf j = lineOf j') raws raws' := by
    rw [← List.forall₂_map_left_iff (R := fun x j' => x = lineOf j') (f := lineOf),
      ← List.forall₂_map_right_iff (f := lineOf), List.forall₂_eq_eq_eq]
    exact hsplit
  obtain ⟨hlength, hline⟩ := List.forall₂_iff_zip.mp hforall
  rw [← List.forall₂_eq_eq_eq]
  refine List.forall₂_iff_zip.mpr ⟨hlength, fun {j j'} hmem => ?_⟩
  obtain ⟨hj, hj'⟩ := List.of_mem_zip hmem
  have hbytes := List.append_cancel_right (hline hmem)
  refine Json.canonicalJson_injective (Json.canonicalJson_of_encodable (henc j hj).1) ?_
    (henc j hj).2 (henc' j' hj').2
  rw [hbytes]
  exact Json.canonicalJson_of_encodable (henc' j' hj').1

/-- The lines are dumps of their records exactly when all of them are explicit. -/
theorem explicit_iff_of_isLine {raws : List Json} {records : List TrajectoryRecord}
    (h : List.Forall₂ IsLine raws records) :
    (∀ raw ∈ raws, TrajectoryRecord.codec.explicit raw = true)
      ↔ raws = records.map TrajectoryRecord.codec.dump := by
  induction h with
  | nil => simp
  | cons hline _ ih =>
    rw [List.forall_mem_cons, ih, List.map_cons, List.cons.injEq,
      TrajectoryRecord.codec.explicit_iff hline.load]

theorem normal_of_isLine {raws : List Json} {records : List TrajectoryRecord}
    (h : List.Forall₂ IsLine raws records) : ∀ raw ∈ raws, raw.Normal = true := by
  induction h with
  | nil => simp
  | cons hline _ ih => exact List.forall_mem_cons.mpr ⟨hline.normal, ih⟩

/-- The manifest is that of an export when it lists the implementations of the episode. -/
theorem Stages.manifest_eq_iff (h : Stages manifestBytes trajectory entryNames limits a) :
    a.manifest = exportManifest a.episode trajectory a.episodeHash
      ↔ ∀ of, a.manifest.refs of = uniqueRefs a.episode of := by
  obtain ⟨first, -, hepisode, -⟩ := assemble_eq_ok.mp (buildEpisode_eq_ok.mp h.episode)
  obtain ⟨hsha, hlength, hcount⟩ := checkDigest_eq_ok.mp h.digest
  constructor
  · intro heq of
    rw [heq]
    cases of <;> rfl
  · intro hrefs
    have hobservation := hrefs .observation
    have hreward := hrefs .reward
    have hcredit := hrefs .credit
    have hcoordinator := hrefs .coordinator
    have hhash := h.sameHash
    rw [exportManifest, ← hobservation, ← hreward, ← hcredit, ← hcoordinator, h.records_eq,
      ← hsha, ← hlength, ← hcount, hhash, hepisode]
    rfl

/-- **Exports.**  An authentic bundle is the export of its episode exactly when it has the form of
    one. -/
theorem Stages.export_iff (h : Stages manifestBytes trajectory entryNames limits a) :
    exportEpisode a.episode = .ok ⟨manifestBytes, trajectory⟩ ↔ ExportForm a := by
  obtain ⟨first, -, hepisode, -⟩ := assemble_eq_ok.mp (buildEpisode_eq_ok.mp h.episode)
  have hstatus : a.episode.status = a.manifest.episodeStatus := by rw [hepisode]; rfl
  have htransitions : a.episode.transitions = transitionsOf a.records := by rw [hepisode]; rfl
  obtain ⟨canonical, hcanonical, hmanifest⟩ := checkManifestEncoding_eq_ok.mp h.manifestEncoding
  obtain ⟨henc, htrajectory⟩ := jsonLines_eq_ok.mp
    (checkTrajectoryEncoding_eq_ok.mp h.trajectoryEncoding).2
  have hnormal := normal_of_isLine h.isLine
  rw [exportEpisode_eq_ok, h.records_eq, hstatus]
  constructor
  · rintro ⟨hclosed, hexported, hash, exported, hhash, hexportedManifest, hbytes⟩
    refine ⟨hclosed, ?_, fun of => ?_⟩
    · -- Both trajectories have the same bytes, hence the same values on their lines.
      obtain ⟨henc', hdump⟩ := jsonLines_eq_ok.mp hexported
      refine (explicit_iff_of_isLine h.isLine).mpr
        (flatMap_lineOf_injective (fun j hj => ⟨henc j hj, hnormal j hj⟩) ?_
          (htrajectory.symm.trans hdump))
      intro j hj
      obtain ⟨record, -, rfl⟩ := List.mem_map.mp hj
      exact ⟨henc' _ hj, TrajectoryRecord.codec.normal_dump record⟩
    · rw [Except.ok.inj (hhash.symm.trans h.episodeHash)] at hexportedManifest
      have hsame : exported = canonical := List.append_cancel_right (hbytes.symm.trans hmanifest)
      rw [hsame] at hexportedManifest
      have hdump := Json.canonicalJson_injective hcanonical hexportedManifest
        (TrajectoryManifestV1.codec.normal_dump _) (TrajectoryManifestV1.codec.normal_dump _)
      have hrefs := h.manifest_eq_iff.mp (TrajectoryManifestV1.codec.dump_injective hdump) of
      rw [← htransitions]
      exact eq_uniqueRefs_iff.mp hrefs
  · rintro ⟨hclosed, hexplicit, hrefs⟩
    have hraws := (explicit_iff_of_isLine h.isLine).mp hexplicit
    have hsame := h.manifest_eq_iff.mpr fun of =>
      eq_uniqueRefs_iff.mpr (by rw [htransitions]; exact hrefs of)
    refine ⟨hclosed, ?_, a.episodeHash, canonical, h.episodeHash, ?_, hmanifest⟩
    · show jsonLines (a.records.map TrajectoryRecord.codec.dump) = .ok trajectory
      rw [← hraws]
      exact jsonLines_eq_ok.mpr ⟨henc, htrajectory⟩
    · show (TrajectoryManifestV1.codec.dump
        (exportManifest a.episode trajectory a.episodeHash)).canonicalJson = .ok canonical
      rw [← hsame]
      exact hcanonical

end Agora.Marl
