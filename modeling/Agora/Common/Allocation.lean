import Agora.Common.Ids

namespace Agora.Ids

/-!
# Allocators

Where the ids of the program come from: the clock, a draw, or a name that a retry derives again.  The
resources are those under which each id is shown.
-/

/-! ### Names -/

def decimal (n : ℤ) : List Char := Json.intText n

/-- `agent_turn_commit_id`. -/
def agentTurnCommitId (turnId : UUID) (proposalIndex : ℤ) (role : String) (ordinal : ℤ) : Py UUID :=
  if proposalIndex < 0 ∨ ordinal < 0 ∨ isBlank role then
    .error (.valueError "proposal commit identity inputs are invalid")
  else
    .ok (uuid5 urlSpace ("agora:".toList ++ turnId.text.toList ++ ':' :: decimal proposalIndex ++ ':' ::
      role.toList ++ ':' :: decimal ordinal))

/-- `response_commit_id`. -/
def responseCommitId (responseId : UUID) (role : String) (ordinal : ℤ) : Py UUID :=
  if isBlank role ∨ ordinal < 0 then
    .error (.valueError "response commit identity inputs are invalid")
  else
    .ok (uuid5 urlSpace ("agora:critique-response:".toList ++ responseId.text.toList ++ ':' ::
      role.toList ++ ':' :: decimal ordinal))

/-- The id that `IngestionActivityRunner.run` gives a chunk. -/
def chunkId (documentId : UUID) (ordinal : ℤ) (contentHash : String) : UUID :=
  uuid5 urlSpace (documentId.text.toList ++ ':' :: decimal ordinal ++ ':' :: contentHash.toList)

/-- The command, event and failure ids of `session_control_ids`. -/
def sessionControlIds (workspaceId sessionId : UUID) (kind idempotencyKey requestHash : String) :
    UUID × UUID × UUID :=
  let scope := "agora:".toList ++ workspaceId.text.toList ++ ':' :: sessionId.text.toList ++ ':' ::
    kind.toList ++ ':' :: idempotencyKey.toList ++ ':' :: requestHash.toList
  (uuid5 urlSpace (scope ++ ":command".toList), uuid5 urlSpace (scope ++ ":event".toList),
    uuid5 urlSpace (scope ++ ":failure".toList))

/-- The definitions of `build_policy_expert_catalogue` and `build_critic_definition`. -/
def definitionId (workspaceId : UUID) (role : String) (version : ℤ) : UUID :=
  uuid5 (uuid5 workspaceId role.toList) ("definition:".toList ++ decimal version)

/-- `_ROW_NAMESPACE`. -/
def rowSpace : UUID := ⟨"7626d3dc-bd31-48ca-b0a5-95d61655a66f", by decide⟩

/-- The row of `RunManifestService.create`. -/
def manifestId (workspaceId sessionId : UUID) : UUID :=
  uuid5 rowSpace (workspaceId.text.toList ++ ':' :: sessionId.text.toList)

/-! ### Resources -/

/-- The roles of an agent turn and the resources that show their ids. -/
def turnRoles : List (String × String) :=
  [("artifact", "artifact"), ("artifact", "critique"), ("node", "graph_node"),
   ("relationship-edge", "graph_edge"), ("event", "event"), ("turn-event", "event")]

/-- The roles of a critique response. -/
def responseRoles : List (String × String) :=
  [("critique-revision", "artifact"), ("critique-revision", "critique"), ("target-revision", "artifact"),
   ("critique-node", "graph_node"), ("target-node", "graph_node"),
   ("critique-supersedes-edge", "graph_edge"), ("critique-attacks-edge", "graph_edge"),
   ("target-supersedes-edge", "graph_edge"), ("target-relationship-edge", "graph_edge"),
   ("critique-revision-event", "event"), ("target-revision-event", "event"), ("response-event", "event")]

/-- What the program allocates and shows, by resource. -/
inductive Allocated : String → UUID → Prop where
  | uuid7 {resource : String} {now : ℤ} {rand : Fin (2 ^ 74)} {v : UUID}
      (known : resource ∈ idPrefixes.map Prod.fst) (made : uuid7 now rand = .ok v) : Allocated resource v
  | consensusResult (drawn : Fin (2 ^ 128)) : Allocated "consensus_result" (uuid4 drawn)
  | agentTurn {resource role : String} {turnId v : UUID} {proposalIndex ordinal : ℤ}
      (shown : (role, resource) ∈ turnRoles)
      (made : agentTurnCommitId turnId proposalIndex role ordinal = .ok v) : Allocated resource v
  | critiqueResponse {resource role : String} {responseId v : UUID} {ordinal : ℤ}
      (shown : (role, resource) ∈ responseRoles)
      (made : responseCommitId responseId role ordinal = .ok v) : Allocated resource v
  | chunk (documentId : UUID) (ordinal : ℤ) (contentHash : String) :
      Allocated "chunk" (chunkId documentId ordinal contentHash)
  | sessionControl (workspaceId sessionId : UUID) (kind idempotencyKey requestHash : String) :
      Allocated "event" (sessionControlIds workspaceId sessionId kind idempotencyKey requestHash).2.1
  | sessionFailure (workspaceId sessionId : UUID) (kind idempotencyKey requestHash : String) :
      Allocated "event" (sessionControlIds workspaceId sessionId kind idempotencyKey requestHash).2.2
  | definition (workspaceId : UUID) (role : String) (version : ℤ) :
      Allocated "agent" (definitionId workspaceId role version)
  | manifest (workspaceId sessionId : UUID) : Allocated "manifest" (manifestId workspaceId sessionId)
  | replayStep (v : UUID) : Allocated "replay_step" v

theorem known_of_mem {resource : String} (h : resource ∈ idPrefixes.map Prod.fst) :
    (idPrefixes.lookup resource).isSome = true := by
  obtain ⟨p, hp, rfl⟩ := List.mem_map.mp h
  exact List.lookup_isSome_iff.mpr ⟨p, hp, beq_self_eq_true p.1⟩

/-- Its resource is a known one, and what was derived or drawn has another version. -/
theorem Allocated.spec {resource : String} {v : UUID} (h : Allocated resource v) :
    (idPrefixes.lookup resource).isSome = true
      ∧ (resource ∈ derivedResources ∨ v.version ≠ some 7 ∨ ∃ now rand, Ids.uuid7 now rand = .ok v) := by
  have hderived (space : UUID) (name : List Char) : (uuid5 space name).version ≠ some 7 := by
    rw [version_uuid5]
    decide
  cases h with
  | uuid7 known made => exact ⟨known_of_mem known, .inr (.inr ⟨_, _, made⟩)⟩
  | consensusResult drawn =>
    refine ⟨known_of_mem (by simp [idPrefixes]), .inr (.inl ?_)⟩
    rw [version_uuid4]
    decide
  | agentTurn shown made =>
    have hshown : ∀ p ∈ turnRoles, p.2 ∈ idPrefixes.map Prod.fst := by simp [turnRoles, idPrefixes]
    refine ⟨known_of_mem (hshown _ shown), .inr (.inl ?_)⟩
    unfold agentTurnCommitId at made
    split_ifs at made
    obtain rfl := Except.ok.inj made
    exact hderived _ _
  | critiqueResponse shown made =>
    have hshown : ∀ p ∈ responseRoles, p.2 ∈ idPrefixes.map Prod.fst := by
      simp [responseRoles, idPrefixes]
    refine ⟨known_of_mem (hshown _ shown), .inr (.inl ?_)⟩
    unfold responseCommitId at made
    split_ifs at made
    obtain rfl := Except.ok.inj made
    exact hderived _ _
  | chunk documentId ordinal contentHash =>
    exact ⟨known_of_mem (by simp [idPrefixes]), .inr (.inl (hderived _ _))⟩
  | sessionControl => exact ⟨known_of_mem (by simp [idPrefixes]), .inr (.inl (hderived _ _))⟩
  | sessionFailure => exact ⟨known_of_mem (by simp [idPrefixes]), .inr (.inl (hderived _ _))⟩
  | definition workspaceId role version =>
    exact ⟨known_of_mem (by simp [idPrefixes]), .inr (.inl (hderived _ _))⟩
  | manifest workspaceId sessionId =>
    exact ⟨known_of_mem (by simp [idPrefixes]), .inl (by simp [derivedResources])⟩
  | replayStep =>
    exact ⟨known_of_mem (by simp [idPrefixes]), .inl (by simp [derivedResources])⟩

/-- **Public identifiers.**  What the program allocates is read back from what it shows when it is
    time-ordered, or a manifest or a replay step; and an accepted text is written again as it was when its
    last 32 characters are lower-case hexadecimal digits. -/
theorem roundTrip_iff (resource : String) (v : UUID) :
    (Allocated resource v →
        (roundTrip resource v = .ok v
          ↔ resource ∈ derivedResources ∨ ∃ now rand, Ids.uuid7 now rand = .ok v))
      ∧ ∀ value, parseId resource value = .ok v →
        (publicId resource v = .ok value ↔ (lastDigits value).all isHexLower = true) := by
  constructor
  · intro h
    obtain ⟨hknown, hversion⟩ := h.spec
    obtain ⟨short, hshort⟩ := Option.isSome_iff_exists.mp hknown
    rw [roundTrip_eq_ok hshort]
    constructor
    · rintro (hresource | h7)
      · exact .inl hresource
      · rcases hversion with hresource | hother | hmade
        · exact .inl hresource
        · exact absurd h7 hother
        · exact .inr hmade
    · rintro (hresource | ⟨now, rand, hmade⟩)
      · exact .inl hresource
      · exact .inr (version_uuid7 hmade)
  · intro value h
    exact publicId_parseId h

def sampleTurn : UUID := ⟨"00000000-0000-0000-0000-000000000001", by decide⟩

/-- The first artifact of the turn. -/
def sampleArtifact : UUID := ⟨"6d2933d9-7e2a-5690-b109-b96777c60e7f", by decide⟩

/-- A base in the place of two digits. -/
def sampleText : String := "art_0x0000000000700080000000000000ab"

/-- What it is read as. -/
def sampleRead : UUID := ⟨"00000000-0000-7000-8000-0000000000ab", by decide⟩

theorem allocated_sampleArtifact : Allocated "artifact" sampleArtifact :=
  @Allocated.agentTurn "artifact" "artifact" sampleTurn sampleArtifact 0 0 (by decide) (by decide +kernel)

theorem roundTrip_iff_sample :
    (roundTrip "artifact" sampleArtifact = .ok sampleArtifact
        ↔ "artifact" ∈ derivedResources ∨ ∃ now rand, Ids.uuid7 now rand = .ok sampleArtifact)
      ∧ (publicId "artifact" sampleRead = .ok sampleText
        ↔ (lastDigits sampleText).all isHexLower = true) :=
  ⟨(roundTrip_iff _ _).1 allocated_sampleArtifact, (roundTrip_iff _ _).2 _ (by decide +kernel)⟩

/-- An artifact of an agent turn is shown under an id that is refused, and a text is accepted that is
    shown as another one. -/
theorem derived_id_refused :
    Allocated "artifact" sampleArtifact
      ∧ roundTrip "artifact" sampleArtifact
        = .error (.valueError "expected a UUIDv7 art_ identifier")
      ∧ parseId "artifact" sampleText = .ok sampleRead
      ∧ publicId "artifact" sampleRead = .ok "art_000000000000700080000000000000ab" := by
  refine ⟨allocated_sampleArtifact, ?_, ?_, ?_⟩
  · decide +kernel
  · decide +kernel
  · decide +kernel

end Agora.Ids
