import Agora.Artifacts.Chain
import Agora.Artifacts.Encoding
import Agora.Ledger.Idempotence
import Agora.Session.Finality

namespace Agora.Artifacts

open Ledger (LedgerAppend LedgerEvent LedgerState)
open Session (sampleId noon)

/-!
# Runs of the artifact service

After any calls, those that raise included, the versions of every logical id of a session are numbered
from 1 and linked, and the graph and the ledger match them (`versions_sound`).  A logical id belongs to
its session: two sessions may use the same one (`versions_of_two_sessions`).
-/

/-! ### What is required -/

structure VersionsSound (s : ReasoningState) : Prop where
  numbered : ∀ w n l, (s.chain w n l).map (·.version) = List.range' 1 (s.chain w n l).length
  linked : ∀ w n l, (s.chain w n l).IsChain fun a b => b.supersedesId = some a.id ∧ a.kind = b.kind
  initial : ∀ w n l, ∀ a ∈ (s.chain w n l).head?, a.supersedesId = none
  unbranched : ∀ b ∈ s.artifacts, ∀ c ∈ s.artifacts, b.supersedesId = c.supersedesId →
    b.supersedesId ≠ none → b = c
  active : ∀ w n l, ∀ a ∈ s.chain w n l, a.status = .active → (s.chain w n l).getLast? = some a
  superseded : ∀ a ∈ s.artifacts,
    a.status = .superseded ↔ ∃ b ∈ s.artifacts, b.supersedesId = some a.id
  same : ∀ b ∈ s.artifacts, ∀ p, b.supersedesId = some p → ∃ a ∈ s.artifacts, a.id = p
    ∧ a.version + 1 = b.version ∧ a.kind = b.kind ∧ a.workspaceId = b.workspaceId
    ∧ a.sessionId = b.sessionId ∧ a.logicalId = b.logicalId
  node : ∀ a ∈ s.artifacts, ∃! v, v ∈ s.nodes ∧ v.projection = a.projection
  projected : ∀ v ∈ s.nodes, ∃ a ∈ s.artifacts, v.projection = a.projection
  edges : List.Forall₂ (IsSupersedesEdge s.nodes) s.supersedesEdges s.revisions

/-- The type of the event of a call, and the artifact that it names. -/
def ArtifactCall.eventType : ArtifactCall → Ledger.NonBlank
  | .commit .. => committedType
  | .revise .. => revisedType
  | .withdraw .. => withdrawnType

def ArtifactCall.artifactId : ArtifactCall → UUID
  | .commit artifact .. => artifact.id
  | .revise artifact .. => artifact.id
  | .withdraw _ _ artifactId .. => artifactId

/-- A call that returns appends its event, and one that raises changes nothing. -/
structure CallSound (db : ReasoningDatabase) (s : ReasoningState) (call : ArtifactCall) : Prop where
  written : ∀ r s', call.run db s = (.ok r, s') → s'.ledger.events = s.ledger.events ++ [r.event]
    ∧ r.event.eventType = call.eventType ∧ Names r.event.toLedgerAppend call.artifactId
  undone : ∀ e s', call.run db s = (.error e, s') → s' = s

/-- No artifacts yet, and none of their events. -/
structure Blank (s : ReasoningState) : Prop where
  artifacts : s.artifacts = []
  nodes : s.nodes = []
  edges : s.edges = []
  events : ∀ e ∈ s.ledger.events, e.eventType ∉ [committedType, revisedType, withdrawnType]

/-! ### Runs -/

variable {db : ReasoningDatabase} {s : ReasoningState}

theorem Blank.sound (h : Blank s) : Sound s where
  ids := by simp [h.artifacts]
  nodes := by simp [h.artifacts, h.nodes]
  edges := by simp [ReasoningState.supersedesEdges, ReasoningState.revisions, h.edges, h.artifacts]
  written e he htype := by
    have hother := h.events e he
    rcases htype with htype | htype <;> simp [htype] at hother
  withdrawn e he htype := by
    have hother := h.events e he
    simp [htype] at hother
  chain w n l := by
    simp only [ReasoningState.chain, h.artifacts, List.filter_nil]
    exact IsVersionChain.nil

/-- The statements of a call keep the invariant and append its event. -/
theorem Sound.statements (h : Sound s) {call : ArtifactCall} {r : ArtifactWriteResult}
    {s' : ReasoningState} (hrun : call.statements db s = (.ok r, s')) :
    Sound s' ∧ s'.ledger = s.ledger.insert r.event ∧ r.event.eventType = call.eventType
      ∧ Names r.event.toLedgerAppend call.artifactId := by
  cases call with
  | commit artifact nodeId edgeIds label context => exact h.commit hrun
  | revise artifact nodeId edgeId edgeIds label reason context => exact h.revise hrun
  | withdraw w n id reason warrants context => exact h.withdraw hrun

/-- **Step.**  A call in its transaction keeps the invariant. -/
theorem Sound.run (h : Sound s) (call : ArtifactCall) :
    Sound (call.run db s).2 ∧ CallSound db s call := by
  rcases transaction_cases db (call.statements db) s with ⟨r, s', hx, -, hrun⟩ | ⟨e, hrun⟩
  · obtain ⟨hsound, hledger, hevent⟩ := h.statements hx
    have hrun : call.run db s = (.ok r, s') := hrun
    refine ⟨by rwa [hrun], ⟨fun r' t ht => ?_, fun e t ht => ?_⟩⟩
    · obtain ⟨heq, rfl⟩ := Prod.mk.inj (hrun.symm.trans ht)
      obtain rfl := Except.ok.inj heq
      exact ⟨by rw [hledger]; rfl, hevent⟩
    · cases hrun.symm.trans ht
  · have hrun : call.run db s = (.error e, s) := hrun
    refine ⟨by rwa [hrun], ⟨fun r' t ht => ?_, fun e t ht => ?_⟩⟩
    · cases hrun.symm.trans ht
    · exact (Prod.mk.inj (hrun.symm.trans ht)).2.symm

/-- What the invariant says. -/
theorem Sound.versions (h : Sound s) : VersionsSound s where
  numbered w n l := (h.chain w n l).map_version
  linked w n l := (h.chain w n l).next.imp fun a b hab => ⟨hab.previous, hab.key⟩
  initial w n l a ha := ((h.chain w n l).first a ha).2
  unbranched b hb c hc hsame hsome := by
    obtain ⟨p, hp⟩ := Option.ne_none_iff_exists'.mp hsome
    obtain ⟨a, ha, hab, hida⟩ := (h.chain _ _ _).exists_previous (mem_chain_self hb) hp
    obtain ⟨a', ha', hac, hida'⟩ := (h.chain _ _ _).exists_previous (mem_chain_self hc) (hsame.symm.trans hp)
    obtain ⟨hmem, hw, hn, hl⟩ := mem_chain.mp ha
    obtain ⟨hmem', hw', hn', hl'⟩ := mem_chain.mp ha'
    -- Both follow the same version, so they are in one chain and have one number.
    obtain rfl := h.eq_of_id hmem hmem' (hida.trans hida'.symm)
    refine (h.chain _ _ _).version_inj (mem_chain_self hb) ?_ (hab.version.trans hac.version.symm)
    rw [← hw, ← hn, ← hl, hw', hn', hl']
    exact mem_chain_self hc
  active w n l a ha hactive := by
    have hcurrent : ¬ artifactVersions.superseded a := by
      show a.status ≠ .superseded
      simp [hactive]
    obtain ⟨earlier, hchain⟩ := (h.chain w n l).eq_concat ha hcurrent
    simp [hchain]
  superseded a ha := by
    constructor
    · intro hsuperseded
      obtain ⟨b, hb, hprevious⟩ := (h.chain _ _ _).exists_next (mem_chain_self ha) hsuperseded
      exact ⟨b, (mem_chain.mp hb).1, hprevious⟩
    · rintro ⟨b, hb, hprevious⟩
      obtain ⟨a', ha', hfollows, hid⟩ := (h.chain _ _ _).exists_previous (mem_chain_self hb) hprevious
      obtain rfl := h.eq_of_id (mem_chain.mp ha').1 ha hid
      exact hfollows.superseded
  same b hb p hp := by
    obtain ⟨a, ha, hfollows, hid⟩ := (h.chain _ _ _).exists_previous (mem_chain_self hb) hp
    obtain ⟨hmem, hw, hn, hl⟩ := mem_chain.mp ha
    exact ⟨a, hmem, hid, hfollows.version.symm, hfollows.key, hw, hn, hl⟩
  node a ha := by
    have hmem : a.projection ∈ s.nodes.map GraphNode.projection := by
      rw [h.nodes]
      exact List.mem_map_of_mem ha
    obtain ⟨v, hv, hprojection⟩ := List.mem_map.mp hmem
    have hnodup : (s.nodes.map GraphNode.projection).Nodup := by
      rw [h.nodes]
      exact List.Nodup.of_map (fun p : UUID × UUID × UUID × Impact.ArtifactKind => p.2.2.1)
        (by simpa [Function.comp_def, ReasoningArtifact.projection] using h.ids)
    refine ⟨v, ⟨hv, hprojection⟩, fun u hu => ?_⟩
    exact List.inj_on_of_nodup_map hnodup hu.1 hv (hu.2.trans hprojection.symm)
  projected v hv := by
    have hmem : v.projection ∈ s.artifacts.map ReasoningArtifact.projection := by
      rw [← h.nodes]
      exact List.mem_map_of_mem hv
    obtain ⟨a, ha, hprojection⟩ := List.mem_map.mp hmem
    exact ⟨a, ha, hprojection.symm⟩
  edges := h.edges

/-- A call in its transaction. -/
def execCall (db : ReasoningDatabase) (call : ArtifactCall) (s : ReasoningState) :
    Py ArtifactWriteResult × ReasoningState := call.run db s

theorem Sound.after (db : ReasoningDatabase) (h : Sound s) (calls : List ArtifactCall) :
    Sound (Agora.after (execCall db) s calls) :=
  after_invariant (fun _ call h _ => (h.run call).1) h
    (along_of_forall (P := fun _ _ => True) (fun _ _ => trivial) s calls)

/-- **Versions.**  After any calls the tables are sound, and every further call appends one event or
    changes nothing. -/
theorem versions_sound (db : ReasoningDatabase) (h : Blank s) (calls : List ArtifactCall) :
    VersionsSound (after (execCall db) s calls)
      ∧ ∀ call, CallSound db (after (execCall db) s calls) call := by
  have hsound := h.sound.after db calls
  exact ⟨hsound.versions, fun call => (hsound.run call).2⟩

/-! ### Two sessions -/

def unlimitedTables : ReasoningDatabase where
  ledger := Ledger.unlimited
  acceptsArtifact _ := true
  acceptsNode _ := true
  acceptsEdge _ := true
  acceptsCommit _ := true

/-- An assumption of a human, in the session with this digit. -/
def sampleFields (digit : Fin 10) : ArtifactFields where
  id := sampleId digit
  workspaceId := sampleId 0
  sessionId := sampleId digit
  logicalId := sampleId 9
  ownerActorClass := .human
  ownerActorId := sampleId 0
  payload :=
    { content := .assumption
      others := [(.ofString "basis", .text "b"), (.ofString "challengeable", .bool true),
        (.ofString "materiality", .text "m"), (.ofString "statement", .text "s")] }
  provenance := ⟨.human, ⟨"r", by decide⟩, none, none⟩
  createdAt := noon 0

theorem writable_sampleFields (digit : Fin 10) : (sampleFields digit).Writable := by
  have hprint : Json.isPrintable 1 = true ∧ Json.isPrintable 0 = true := by decide
  refine ⟨?_, rfl, rfl, hprint.1, hprint.1, hprint.2⟩
  show Json.encodableEntries (_ : List (PyStr × Json)) = true
  simp [sampleFields, Json.encodableEntries, Json.isScalar_ofString, Json.encodable]

def sampleArtifact (digit : Fin 10) : ReasoningArtifact where
  toArtifactFields := sampleFields digit
  contentHash := Marl.sha256Hash (utf8 (sampleFields digit).hashPreimage.canonical)
  valid := rfl
  hashed := Marl.canonicalHash_eq_ok.mpr ⟨encodable_hashPreimage (writable_sampleFields digit), rfl⟩
  status := .active
  updatedAt := noon 0

def sampleContext (digit : Fin 10) : ArtifactEventContext where
  eventId := sampleId digit
  correlationId := sampleId 0
  causationId := none
  actorClass := .human
  actorId := sampleId 0
  recordedAt := noon 0

def sampleCall (digit : Fin 10) : ArtifactCall :=
  .commit (sampleArtifact digit) (sampleId digit) [] "Assumption" (sampleContext digit)

/-- The artifact is committed where it is new. -/
theorem run_sampleCall {s : ReasoningState} {digit : Fin 10}
    (hartifacts : ∀ b ∈ s.artifacts, b.id ≠ sampleId digit ∧ b.sessionId ≠ sampleId digit)
    (hnodes : ∀ v ∈ s.nodes, v.id ≠ sampleId digit ∧ v.sessionId ≠ sampleId digit)
    (hevents : ∀ e ∈ s.ledger.events, e.id ≠ sampleId digit)
    (hhead : s.ledger.head? (sampleId 0) (sampleId digit)
      = some ⟨sampleId 0, 1, Ledger.genesisHash, Nat.one_pos⟩) :
    ∃ node e, execCall unlimitedTables (sampleCall digit) s = (.ok ⟨sampleArtifact digit, e⟩,
        s.extend (sampleArtifact digit) node [] (s.ledger.insert e))
      ∧ (node.id = sampleId digit ∧ node.sessionId = sampleId digit)
      ∧ (e.id = sampleId digit ∧ e.sessionId = sampleId digit) := by
  have hprint : Json.isPrintable 1 = true ∧ Json.isPrintable 0 = true := by decide
  have hkeys : (["artifact_id", "kind", "logical_id", "version"].map PyStr.ofString).Nodup := by decide
  obtain ⟨event, hevent⟩ := @exists_artifactEvent (sampleArtifact digit) (sampleArtifact digit)
    (sampleContext digit) committedType [] hprint.1 rfl hkeys (List.forall_mem_nil _)
  have hvalues := (artifactEvent_ok hevent).1
  have hnew : s.ledger.eventById event.id = none := by
    rw [Ledger.eventById_eq_none, hvalues.id]
    intro hmem
    obtain ⟨e, he, hid⟩ := List.mem_map.mp hmem
    exact hevents e he hid
  have happended : ∃ e, Ledger.append unlimitedTables.ledger event s.ledger = (.ok e, s.ledger.insert e)
      ∧ e.toLedgerAppend = event := Ledger.exists_append hnew
    (by rw [hvalues.workspaceId, hvalues.sessionId]; exact hhead) hprint.1
    (by rw [hvalues.payloadSchemaVersion]; exact hprint.1) (by rw [hvalues.round]; exact hprint.2)
    (fun _ => rfl)
  obtain ⟨e, happend, heq⟩ := happended
  obtain ⟨node, hnode⟩ := @exists_graphNode (sampleArtifact digit) (sampleId digit) "Assumption" hprint.1
    (by decide)
  obtain ⟨hid, hprojection⟩ := graphNode_ok hnode
  simp only [GraphNode.projection, ReasoningArtifact.projection, Prod.mk.injEq] at hprojection
  have hsession : node.sessionId = sampleId digit := hprojection.2.1
  have hprojects : Projects unlimitedTables s (sampleArtifact digit) (sampleId digit) [] "Assumption"
      (sampleContext digit) node [] := by
    refine ⟨?_, rfl, hnode, ?_, rfl, rfl, List.Forall₂.nil, EdgesFit.nil _⟩
    · refine freshArtifact_iff.mpr fun b hb => ⟨(hartifacts b hb).1, fun hkey => ?_⟩
      exact (hartifacts b hb).2 (congrArg (fun k => k.2.1) hkey)
    · simp only [ReasoningState.freshNode, List.all_eq_true, Bool.and_eq_true, decide_eq_true_eq, hid]
      refine fun v hv => ⟨(hnodes v hv).1, fun hkey => (hnodes v hv).2 ?_⟩
      exact (congrArg Prod.fst hkey).trans hsession
  refine ⟨node, e, ?_, ⟨hid, hsession⟩, ?_⟩
  · refine transaction_ok.mpr ⟨?_, rfl⟩
    exact commit_ok.mpr ⟨⟨rfl, rfl, rfl⟩, node, [], event, e, _, hprojects, hevent, happend, rfl, rfl⟩
  · exact ⟨(congrArg LedgerAppend.id heq).trans hvalues.id,
      (congrArg LedgerAppend.sessionId heq).trans hvalues.sessionId⟩

/-- An empty store with a ledger for every session. -/
def sampleStart : ReasoningState where
  artifacts := []
  nodes := []
  edges := []
  ledger := Ledger.genesis fun _ => some (sampleId 0)

theorem blank_sampleStart : Blank sampleStart := ⟨rfl, rfl, rfl, by simp [sampleStart, Ledger.genesis]⟩

theorem versions_sound_sample :
    VersionsSound (after (execCall unlimitedTables) sampleStart [sampleCall 1, sampleCall 2])
      ∧ ∀ call, CallSound unlimitedTables
        (after (execCall unlimitedTables) sampleStart [sampleCall 1, sampleCall 2]) call :=
  versions_sound unlimitedTables blank_sampleStart _

/-- Two sessions use one logical id, each for a first version. -/
theorem versions_of_two_sessions :
    ¬ ∀ (db : ReasoningDatabase) (s : ReasoningState), Blank s → ∀ (calls : List ArtifactCall) (l : UUID),
      let versions := ((after (execCall db) s calls).artifacts.filter (·.logicalId = l)).map (·.version)
      versions = List.range' 1 versions.length := by
  intro h
  obtain ⟨node, e, hfirst, ⟨hnode, hnodeSession⟩, he, heSession⟩ := @run_sampleCall sampleStart 1
    (List.forall_mem_nil _) (List.forall_mem_nil _) (List.forall_mem_nil _)
    (by simp [sampleStart, Ledger.genesis, Ledger.LedgerState.head?])
  have hdiffers : sampleId 1 ≠ sampleId 2 := by decide +kernel
  obtain ⟨node', e', hsecond, -⟩ := @run_sampleCall
    (sampleStart.extend (sampleArtifact 1) node [] (sampleStart.ledger.insert e)) 2
    (by simpa [ReasoningState.extend, sampleStart] using ⟨hdiffers, hdiffers⟩)
    (by simpa [ReasoningState.extend, sampleStart, hnode, hnodeSession] using hdiffers)
    (by simpa [ReasoningState.extend, sampleStart, Ledger.genesis, Ledger.LedgerState.insert, he]
      using hdiffers)
    (by simp [ReasoningState.extend, sampleStart, Ledger.genesis, Ledger.LedgerState.insert,
      Ledger.LedgerState.head?, heSession, hdiffers.symm])
  have hversions := h unlimitedTables sampleStart blank_sampleStart [sampleCall 1, sampleCall 2] (sampleId 9)
  rw [after_cons_of (congrArg Prod.snd hfirst), after_cons_of (congrArg Prod.snd hsecond)] at hversions
  have htwo : [1, 1] = List.range' 1 2 := hversions
  exact absurd htwo (by decide)

end Agora.Artifacts
