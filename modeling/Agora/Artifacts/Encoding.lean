import Agora.Artifacts.Effects
import Agora.Lib.JsonOrder

namespace Agora.Artifacts

open Ledger (LedgerAppend Payload jsonPayload uuidOrNull)

/-!
# Which artifacts have a hash, a node and an event

The texts and ids of an envelope can always be written; what may fail is a number that is too long to
print, or JSON that was not validated (`encodable_hashPreimage`, `exists_artifactEvent`).
-/

/-! ### Values -/

@[simp] theorem encodable_text (s : String) : (Json.text s).encodable = true :=
  Json.isScalar_ofString s

@[simp] theorem normal_text (s : String) : (Json.text s).Normal = true := rfl

theorem encodableItems_map {α : Type} {f : α → Json} (l : List α)
    (h : ∀ a ∈ l, (f a).encodable = true) : Json.encodableItems (l.map f) = true := by
  induction l with
  | nil => rfl
  | cons a l ih =>
    obtain ⟨ha, hl⟩ := List.forall_mem_cons.mp h
    rw [List.map_cons, Json.encodableItems, ha, ih hl]
    rfl

@[simp] theorem encodable_uuids (ids : List UUID) : (uuids ids).encodable = true :=
  encodableItems_map ids fun _ _ => encodable_text _

@[simp] theorem encodable_uuidOrNull (id : Option UUID) : (uuidOrNull id).encodable = true := by
  cases id with
  | none => rfl
  | some id => exact encodable_text _

theorem normal_uuids (ids : List UUID) : (uuids ids).Normal = true := by
  unfold uuids Json.Normal
  rw [Json.allObjects]
  induction ids with
  | nil => rfl
  | cons id ids ih =>
    rw [List.map_cons, Json.allItems, ih]
    rfl

@[simp] theorem encodable_provenance (p : Provenance) : p.modelDump.encodable = true := by
  simp [Provenance.modelDump, Json.encodable, Json.encodableEntries, Json.isScalar_ofString]

@[simp] theorem encodable_confidence (c : Confidence) : c.modelDump.encodable = true := by
  simp [Confidence.modelDump, Json.encodable, Json.encodableEntries, Json.isScalar_ofString]

@[simp] theorem encodable_relationships (parents : List ParentRelationship) :
    (Json.arr (parents.map ParentRelationship.modelDump)).encodable = true := by
  refine encodableItems_map parents fun r _ => ?_
  simp [ParentRelationship.modelDump, Json.encodable, Json.encodableEntries, Json.isScalar_ofString]

/-- The fields that are read can be written. -/
theorem encodable_content (c : Content) : Json.encodableEntries c.entries = true := by
  cases c <;> simp [Content.entries, Json.encodableEntries, Json.isScalar_ofString]

theorem encodable_payload {p : ArtifactPayload} (h : Json.encodableEntries p.others = true) :
    p.modelDump.encodable = true := by
  rw [ArtifactPayload.modelDump, Json.encodable, Json.encodableEntries_iff]
  intro e he
  rcases List.mem_append.mp ((sortByKey_perm _).mem_iff.mp he) with he | he
  · exact Json.encodableEntries_iff.mp (encodable_content p.content) e he
  · exact Json.encodableEntries_iff.mp h e he

/-! ### Hashes -/

/-- What may keep an artifact from being written down. -/
structure ArtifactFields.Writable (a : ArtifactFields) : Prop where
  payload : Json.encodableEntries a.payload.others = true
  metadata : Json.encodableEntries a.metadata = true
  sources : Json.encodableItems a.sourceReferences = true
  schemaVersion : Json.isPrintable a.schemaVersion = true
  version : Json.isPrintable a.version = true
  round : Json.isPrintable a.round = true

theorem encodable_hashPreimage {a : ArtifactFields} (h : a.Writable) :
    a.hashPreimage.encodable = true := by
  have hconfidence : ((a.confidence.map Confidence.modelDump).getD .null).encodable = true := by
    cases a.confidence with
    | none => rfl
    | some c => exact encodable_confidence c
  have hmetadata : (Json.obj a.metadata).encodable = true := h.metadata
  have hsources : (Json.arr a.sourceReferences).encodable = true := h.sources
  have hint {n : ℕ} (hn : Json.isPrintable n = true) : (Json.int n).encodable = true := hn
  rw [ArtifactFields.hashPreimage, Json.encodable]
  simp [Json.encodableEntries, Json.isScalar_ofString, hconfidence, hmetadata, hsources,
    encodable_payload h.payload, hint h.schemaVersion, hint h.version, hint h.round]

/-! ### Events -/

/-- Entries with distinct keys make a payload. -/
theorem exists_jsonPayload {entries : List (PyStr × Json)}
    (hencodable : Json.encodableEntries entries = true) (hkeys : (entries.map Prod.fst).Nodup)
    (hnormal : ∀ e ∈ entries, e.2.Normal = true) : ∃ p, jsonPayload (sortByKey entries) = .ok p := by
  have hperm := sortByKey_perm entries
  have h : (Json.obj (sortByKey entries)).encodable = true ∧ (Json.obj (sortByKey entries)).Normal = true := by
    constructor
    · exact Json.encodableEntries_iff.mpr fun e he =>
        Json.encodableEntries_iff.mp hencodable e (hperm.mem_iff.mp he)
    · rw [Json.Normal, Json.allObjects, Bool.and_eq_true, Bool.and_eq_true, decide_eq_true_eq,
        decide_eq_true_eq]
      refine ⟨⟨(hperm.map Prod.fst).nodup_iff.mpr hkeys, ?_⟩, Json.allEntries_iff.mpr fun e he => ?_⟩
      · exact List.pairwise_map.mpr (pairwise_sortByKey entries)
      · exact hnormal e (hperm.mem_iff.mp he)
  exact ⟨_, dif_pos h⟩

/-- An artifact whose metadata names no attribution has an event. -/
theorem exists_artifactEvent {artifact a : ReasoningArtifact} (context : ArtifactEventContext)
    (eventType : Ledger.NonBlank) {more : List (PyStr × Json)}
    (hversion : Json.isPrintable artifact.version = true)
    (hencodable : Json.encodableEntries (more ++ a.metadataEntry "attribution"
      ++ a.metadataEntry "evidence_disposition") = true)
    (hkeys : ((artifact.eventEntries ++ more ++ a.metadataEntry "attribution"
      ++ a.metadataEntry "evidence_disposition").map Prod.fst).Nodup)
    (hnormal : ∀ e ∈ more ++ a.metadataEntry "attribution" ++ a.metadataEntry "evidence_disposition",
      e.2.Normal = true) :
    ∃ event, artifactEvent a context eventType (artifact.eventEntries ++ more) = .ok event := by
  have hentries : ∀ e ∈ artifact.eventEntries,
      (Json.isScalar e.1 = true ∧ e.2.encodable = true) ∧ e.2.Normal = true := by
    have hint : (Json.int artifact.version).encodable = true := hversion
    simp [ReasoningArtifact.eventEntries, Json.isScalar_ofString, hint]
    rfl
  have hall : ∀ e ∈ artifact.eventEntries ++ more ++ a.metadataEntry "attribution"
      ++ a.metadataEntry "evidence_disposition",
      (Json.isScalar e.1 = true ∧ e.2.encodable = true) ∧ e.2.Normal = true := by
    intro e he
    rw [List.append_assoc, List.append_assoc, List.mem_append] at he
    rcases he with he | he
    · exact hentries e he
    · rw [← List.append_assoc] at he
      exact ⟨Json.encodableEntries_iff.mp hencodable e he, hnormal e he⟩
  obtain ⟨p, hp⟩ := exists_jsonPayload (Json.encodableEntries_iff.mpr fun e he => (hall e he).1) hkeys
    fun e he => (hall e he).2
  exact ⟨_, by rw [artifactEvent, hp, Except.ok_bind]; rfl⟩

end Agora.Artifacts
