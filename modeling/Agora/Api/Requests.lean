import Agora.Artifacts.Commit
import Agora.Common.Ids
import Agora.Lib.JsonOrder
import Mathlib.Data.FinEnum
import Mathlib.Data.Fintype.Pigeonhole
import Mathlib.Data.Fintype.Prod

namespace Agora.Api

open Artifacts
open Impact (ArtifactKind)
open Ledger (NonBlank)
open Marl (Hash canonicalHash sha256Hash)

/-!
# Write requests

The bodies of the requests that write artifacts, the operation a request names and the hash it is
recognized by.  The hash of a revision or a withdrawal covers the expected version beside the body,
and the operation names the target, so requests with equal operations and hashes are the same
command unless their canonical texts collide (`same_of_hash`).
-/

/-! ### Bodies -/

/-- A JSON object as it was parsed. -/
structure JsonObject where
  entries : List (PyStr × Json)
  uniqueKeys : (Json.obj entries).uniqueKeys = true

def JsonObject.json (d : JsonObject) : Json := .obj d.entries

/-- The id of an artifact as it is sent, with the UUID that is read in it. -/
structure ArtifactId where
  text : String
  value : UUID
  parsed : Ids.parseId "artifact" text = .ok value

structure ProvenanceInput where
  origin : ProvenanceOrigin
  reference : NonBlank

structure ParentRelationshipInput where
  edgeType : GraphEdgeType
  targetArtifactId : ArtifactId

/-- The value is a decimal text between zero and one. -/
structure ConfidenceInput where
  kind : NonBlank
  value : String
  meaning : NonBlank
  basisArtifactIds : List ArtifactId

/-- The fields that a new artifact and a revision share.  The sources are as they are dumped. -/
structure ArtifactInput where
  payload : JsonObject
  provenance : ProvenanceInput
  sourceReferences : List Json
  uniqueKeys : (Json.arr sourceReferences).uniqueKeys = true
  parentRelationships : List ParentRelationshipInput
  confidence : Option ConfidenceInput
  metadata : JsonObject

structure ArtifactCreate extends ArtifactInput where
  kind : ArtifactKind

structure ArtifactRevisionCreate extends ArtifactInput where
  reason : NonBlank

structure ArtifactWithdrawalCreate where
  reason : NonBlank
  warrantArtifactIds : List ArtifactId
  warranted : warrantArtifactIds ≠ []
  unique : (warrantArtifactIds.map ArtifactId.text).Nodup

/-! ### Dumps -/

def ProvenanceInput.modelDump (p : ProvenanceInput) : Json :=
  .obj [(.ofString "origin", .text p.origin.value), (.ofString "reference", .text p.reference.text)]

def ParentRelationshipInput.modelDump (r : ParentRelationshipInput) : Json :=
  .obj [(.ofString "edge_type", .text r.edgeType.value),
    (.ofString "target_artifact_id", .text r.targetArtifactId.text)]

def ConfidenceInput.modelDump (c : ConfidenceInput) : Json :=
  .obj [(.ofString "basis_artifact_ids", .arr (c.basisArtifactIds.map fun i => .text i.text)),
    (.ofString "kind", .text c.kind.text),
    (.ofString "meaning", .text c.meaning.text),
    (.ofString "value", .text c.value)]

/-- The dump of the shared fields and of one more. -/
def ArtifactInput.modelDump (b : ArtifactInput) (key value : String) : Json :=
  .obj [(.ofString key, .text value),
    (.ofString "confidence", (b.confidence.map ConfidenceInput.modelDump).getD .null),
    (.ofString "metadata", b.metadata.json),
    (.ofString "parent_relationships",
      .arr (b.parentRelationships.map ParentRelationshipInput.modelDump)),
    (.ofString "payload", b.payload.json),
    (.ofString "provenance", b.provenance.modelDump),
    (.ofString "source_references", .arr b.sourceReferences)]

def ArtifactCreate.modelDump (b : ArtifactCreate) : Json :=
  b.toArtifactInput.modelDump "kind" b.kind.value

def ArtifactRevisionCreate.modelDump (b : ArtifactRevisionCreate) : Json :=
  b.toArtifactInput.modelDump "reason" b.reason.text

def ArtifactWithdrawalCreate.modelDump (b : ArtifactWithdrawalCreate) : Json :=
  .obj [(.ofString "reason", .text b.reason.text),
    (.ofString "warrant_artifact_ids", .arr (b.warrantArtifactIds.map fun i => .text i.text))]

/-! ### Commands -/

/-- What a request asks for.  The version is that of `If-Match`. -/
inductive Command where
  | create (sessionId : UUID) (body : ArtifactCreate)
  | revise (artifactId : UUID) (ifMatch : ℕ) (body : ArtifactRevisionCreate)
  | withdraw (artifactId : UUID) (ifMatch : ℕ) (body : ArtifactWithdrawalCreate)

namespace Command

def operation : Command → String
  | create sessionId _ => "artifact:create:" ++ sessionId.text
  | revise artifactId _ _ => "artifact:revise:" ++ artifactId.text
  | withdraw artifactId _ _ => "artifact:withdraw:" ++ artifactId.text

/-- `{"if_match": if_match, "body": body.model_dump(mode="json")}`, in key order. -/
def conditional (ifMatch : ℕ) (body : Json) : Json :=
  .obj [(.ofString "body", body), (.ofString "if_match", .int ifMatch)]

/-- What the hash of the request covers. -/
def preimage : Command → Json
  | create _ body => body.modelDump
  | revise _ ifMatch body => conditional ifMatch body.modelDump
  | withdraw _ ifMatch body => conditional ifMatch body.modelDump

def requestHash (c : Command) : Py Hash := canonicalHash c.preimage

/-- The artifact that a command retires, and the version it expects. -/
def expected? : Command → Option (UUID × ℕ)
  | create _ _ => none
  | revise artifactId ifMatch _ => some (artifactId, ifMatch)
  | withdraw artifactId ifMatch _ => some (artifactId, ifMatch)

def target? (c : Command) : Option UUID := c.expected?.map Prod.fst

/-- The same JSON, with the keys of its objects in any order. -/
def SameJson (i j : Json) : Prop := i.normalize = j.normalize

/-- The same command on the same target. -/
def Same : Command → Command → Prop
  | create s body, create s' body' => s = s' ∧ SameJson body.modelDump body'.modelDump
  | revise a n body, revise a' n' body' =>
    a = a' ∧ n = n' ∧ SameJson body.modelDump body'.modelDump
  | withdraw a n body, withdraw a' n' body' =>
    a = a' ∧ n = n' ∧ SameJson body.modelDump body'.modelDump
  | _, _ => False

end Command

/-! ### Equal hashes -/

section Hashes

/-- Two texts with one hash. -/
def Collide (b b' : Bytes) : Prop := b ≠ b' ∧ sha256Hash b = sha256Hash b'

namespace Command

theorem operation_target {p : String} {v v' : UUID} (h : p ++ v.text = p ++ v'.text) : v = v' := by
  apply UUID.ext
  simpa using h

theorem operation_ne {p q : String} {v v' : UUID} (hpq : ¬ p.toList <+: q.toList)
    (hqp : ¬ q.toList <+: p.toList) : p ++ v.text ≠ q ++ v'.text := by
  intro h
  have hp : p.toList <+: (p ++ v.text).toList := by simp
  have hq : q.toList <+: (q ++ v'.text).toList := by simp
  rw [h] at hp
  rcases List.prefix_or_prefix_of_prefix hp hq with h | h
  · exact hpq h
  · exact hqp h

/-- Commands with one operation are of one kind and have one target. -/
theorem cases_of_operation {c c' : Command} (h : c.operation = c'.operation) :
    (∃ s body body', c = create s body ∧ c' = create s body')
      ∨ (∃ a n n' body body', c = revise a n body ∧ c' = revise a n' body')
      ∨ ∃ a n n' body body', c = withdraw a n body ∧ c' = withdraw a n' body' := by
  cases c with
  | create s body =>
    cases c' with
    | create s' body' =>
      have hs : s = s' := operation_target (p := "artifact:create:") h
      exact Or.inl ⟨s, body, body', rfl, by rw [hs]⟩
    | revise => exact absurd h (operation_ne (by decide) (by decide))
    | withdraw => exact absurd h (operation_ne (by decide) (by decide))
  | revise a n body =>
    cases c' with
    | revise a' n' body' =>
      have ha : a = a' := operation_target (p := "artifact:revise:") h
      exact Or.inr (Or.inl ⟨a, n, n', body, body', rfl, by rw [ha]⟩)
    | create => exact absurd h (operation_ne (by decide) (by decide))
    | withdraw => exact absurd h (operation_ne (by decide) (by decide))
  | withdraw a n body =>
    cases c' with
    | withdraw a' n' body' =>
      have ha : a = a' := operation_target (p := "artifact:withdraw:") h
      exact Or.inr (Or.inr ⟨a, n, n', body, body', rfl, by rw [ha]⟩)
    | create => exact absurd h (operation_ne (by decide) (by decide))
    | revise => exact absurd h (operation_ne (by decide) (by decide))

theorem uniqueKeys_texts {α : Type} (f : α → String) (l : List α) :
    (Json.arr (l.map fun a => .text (f a))).uniqueKeys = true :=
  Json.uniqueKeys_arr (by simp)

theorem uniqueKeys_parents (l : List ParentRelationshipInput) :
    (Json.arr (l.map ParentRelationshipInput.modelDump)).uniqueKeys = true := by
  apply Json.uniqueKeys_arr
  intro j hj
  obtain ⟨r, -, rfl⟩ := List.mem_map.mp hj
  exact Json.uniqueKeys_obj ["edge_type", "target_artifact_id"] rfl (by decide) (by simp)

theorem uniqueKeys_confidence (c : Option ConfidenceInput) :
    ((c.map ConfidenceInput.modelDump).getD .null).uniqueKeys = true := by
  cases c with
  | none => rfl
  | some c =>
    exact Json.uniqueKeys_obj ["basis_artifact_ids", "kind", "meaning", "value"] rfl
      (by decide) (by simp [uniqueKeys_texts])

theorem uniqueKeys_provenance (p : ProvenanceInput) : p.modelDump.uniqueKeys = true :=
  Json.uniqueKeys_obj ["origin", "reference"] rfl (by decide) (by simp)

theorem uniqueKeys_input (b : ArtifactInput) {key : String} (value : String)
    (hkey : key = "kind" ∨ key = "reason") : (b.modelDump key value).uniqueKeys = true := by
  apply Json.uniqueKeys_obj [key, "confidence", "metadata", "parent_relationships", "payload",
    "provenance", "source_references"] rfl
  · rcases hkey with rfl | rfl
    · decide
    · decide
  · simp [uniqueKeys_parents, uniqueKeys_confidence, uniqueKeys_provenance, b.uniqueKeys,
      JsonObject.json, b.payload.uniqueKeys, b.metadata.uniqueKeys]

theorem uniqueKeys_withdrawal (b : ArtifactWithdrawalCreate) : b.modelDump.uniqueKeys = true :=
  Json.uniqueKeys_obj ["reason", "warrant_artifact_ids"] rfl (by decide)
    (by simp [uniqueKeys_texts])

theorem uniqueKeys_conditional (n : ℕ) {body : Json} (h : body.uniqueKeys = true) :
    (conditional n body).uniqueKeys = true :=
  Json.uniqueKeys_obj ["body", "if_match"] rfl (by decide) (by simp [h])

theorem uniqueKeys_preimage (c : Command) : c.preimage.uniqueKeys = true := by
  cases c with
  | create s body => exact uniqueKeys_input _ _ (.inl rfl)
  | revise a n body => exact uniqueKeys_conditional n (uniqueKeys_input _ _ (.inr rfl))
  | withdraw a n body => exact uniqueKeys_conditional n (uniqueKeys_withdrawal body)

theorem normalize_conditional (n : ℕ) (body : Json) :
    (conditional n body).normalize = conditional n body.normalize := by
  show Json.obj (sortByKey [(.ofString "body", body.normalize), (.ofString "if_match", .int n)]) = _
  have hsorted : [(PyStr.ofString "body", body.normalize), (.ofString "if_match", .int n)].Pairwise
      fun e f => keyLe e.1 f.1 = true := by
    simp
    decide +kernel
  rw [sortByKey, hsorted.insertionSort_eq]
  rfl

theorem conditional_inj {n n' : ℕ} {body body' : Json}
    (h : (conditional n body).normalize = (conditional n' body').normalize) :
    n = n' ∧ SameJson body body' := by
  rw [normalize_conditional, normalize_conditional] at h
  simp only [conditional, Json.obj.injEq, List.cons.injEq, Prod.mk.injEq, Json.int.injEq,
    Nat.cast_inj, true_and, and_true] at h
  exact ⟨h.2, h.1⟩

/-- **Requests with equal operations and hashes.** -/
theorem same_of_hash {c c' : Command} {x : Hash} (hoperation : c.operation = c'.operation)
    (h : c.requestHash = .ok x) (h' : c'.requestHash = .ok x) :
    c.Same c' ∨ Collide (utf8 c.preimage.canonical) (utf8 c'.preimage.canonical) := by
  obtain ⟨hc, hx⟩ := Marl.canonicalHash_eq_ok.mp h
  obtain ⟨hc', hx'⟩ := Marl.canonicalHash_eq_ok.mp h'
  by_cases htexts : utf8 c.preimage.canonical = utf8 c'.preimage.canonical
  · left
    have hsame : c.preimage.normalize = c'.preimage.normalize :=
      (Json.canonical_eq_iff hc hc' (uniqueKeys_preimage c) (uniqueKeys_preimage c')).mp
        (utf8_injective htexts)
    rcases cases_of_operation hoperation with ⟨s, body, body', rfl, rfl⟩
      | ⟨a, n, n', body, body', rfl, rfl⟩ | ⟨a, n, n', body, body', rfl, rfl⟩
    · exact ⟨rfl, hsame⟩
    · obtain ⟨hn, hbody⟩ := conditional_inj hsame
      exact ⟨rfl, hn, hbody⟩
    · obtain ⟨hn, hbody⟩ := conditional_inj hsame
      exact ⟨rfl, hn, hbody⟩
  · exact Or.inr ⟨htexts, hx.symm.trans hx'⟩

end Command

end Hashes

/-! ### Equal hashes of different commands -/

section Pigeonhole

/-- A digest is eight words. -/
theorem finite_digest : Finite Sha256.State := by
  have : Finite UInt32 := inferInstance
  apply Finite.of_injective fun s : Sha256.State => (s.a, s.b, s.c, s.d, s.e, s.f, s.g, s.h)
  rintro ⟨⟩ ⟨⟩ h
  simpa using h

theorem sha256Hash_congr {b b' : Bytes} (h : Sha256.digest b = Sha256.digest b') :
    sha256Hash b = sha256Hash b' := by
  apply Marl.Text.eq_of_text_eq
  show String.ofList (_ ++ Sha256.hexDigest b) = String.ofList (_ ++ Sha256.hexDigest b')
  rw [Sha256.hexDigest, Sha256.hexDigest, h]

def sampleArtifact : UUID := ⟨"00000000-0000-7000-8000-000000000001", by decide⟩

/-- A withdrawal whose reason has `n + 1` letters. -/
def longReason (n : ℕ) : NonBlank where
  text := String.ofList (List.replicate (n + 1) 'r')
  isValid := by
    have hletter : isSpace 'r' = false := by decide
    simp [isBlank, List.replicate_succ, hletter]

def longWithdrawal (n : ℕ) : ArtifactWithdrawalCreate where
  reason := longReason n
  warrantArtifactIds :=
    [⟨"art_00000000000070008000000000000001", sampleArtifact, by decide +kernel⟩]
  warranted := by simp
  unique := by simp

theorem encodable_longWithdrawal (n : ℕ) :
    (Command.withdraw sampleArtifact 1 (longWithdrawal n)).preimage.encodable = true := by
  have hprintable : Json.isPrintable 1 = true := by decide
  simp [Command.preimage, Command.conditional, ArtifactWithdrawalCreate.modelDump, longWithdrawal,
    Json.encodable, Json.encodableEntries, Json.encodableItems, Json.text, Json.isScalar_ofString,
    hprintable]

theorem longWithdrawal_inj {m n : ℕ}
    (h : Command.SameJson (longWithdrawal m).modelDump (longWithdrawal n).modelDump) : m = n := by
  have hsorted (n : ℕ) : (longWithdrawal n).modelDump.sortedKeys = true := rfl
  rw [Command.SameJson, Json.normalize_eq_self (hsorted m), Json.normalize_eq_self (hsorted n)] at h
  simp only [ArtifactWithdrawalCreate.modelDump, Json.text, Json.obj.injEq, List.cons.injEq,
    Prod.mk.injEq, true_and, Json.str.injEq] at h
  have hreason : String.ofList (List.replicate (m + 1) 'r')
      = String.ofList (List.replicate (n + 1) 'r') := PyStr.ofString_injective h.1
  simpa using congrArg String.length hreason

/-- There are more reasons than hashes. -/
theorem not_same_of_hash : ¬ ∀ (c c' : Command) (x : Hash), c.operation = c'.operation →
    c.requestHash = .ok x → c'.requestHash = .ok x → c.Same c' := by
  intro h
  have : Finite Sha256.State := finite_digest
  obtain ⟨m, n, hne, hdigest⟩ := Finite.exists_ne_map_eq_of_infinite fun n : ℕ =>
    Sha256.digest (utf8 (Command.withdraw sampleArtifact 1 (longWithdrawal n)).preimage.canonical)
  obtain ⟨-, -, hsame⟩ := h (.withdraw sampleArtifact 1 (longWithdrawal m))
    (.withdraw sampleArtifact 1 (longWithdrawal n)) _ rfl
    (Marl.canonicalHash_eq_ok.mpr ⟨encodable_longWithdrawal m, rfl⟩)
    (Marl.canonicalHash_eq_ok.mpr ⟨encodable_longWithdrawal n, sha256Hash_congr hdigest⟩)
  exact hne (longWithdrawal_inj hsame)

end Pigeonhole

end Agora.Api
