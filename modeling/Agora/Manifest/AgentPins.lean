import Agora.Lib.JsonOrder
import Agora.Manifest.Replayable

namespace Agora.Manifest

open Marl (sampleId)
open Stateful

/-!
# Agents and the pins of creation

A document may have agents of several versions of a definition, while what was pinned at creation is
compared by definition: of the agents of one definition the last one counts
(`validateDocument_eq_ok`).  The pins are enforced for every agent exactly when the agents of one
definition do not differ, or the document is refused on other grounds (`enforcesPins_iff`).
-/

/-! ### Sorted dictionaries -/

/-- Dictionaries with sorted keys that have the same entries. -/
theorem eq_of_ordered {α : Type} {es fs : List (PyStr × α)} (hes : Codec.Ordered (es.map Prod.fst))
    (hfs : Codec.Ordered (fs.map Prod.fst)) (hscalar : ∀ e ∈ es, Json.isScalar e.1 = true)
    (h : ∀ e, e ∈ es ↔ e ∈ fs) : es = fs := by
  have hperm : es.Perm fs := (List.perm_ext_iff_of_nodup hes.1.of_map hfs.1.of_map).mpr h
  have hsorted : sortByKey es = sortByKey fs := sortByKey_eq_of_perm hperm hes.1 hscalar
  have hsame {gs : List (PyStr × α)} (hgs : Codec.Ordered (gs.map Prod.fst)) :
      sortByKey gs = gs := (List.pairwise_map.mp hgs.2).insertionSort_eq
  rw [hsame hes, hsame hfs] at hsorted
  exact hsorted

/-! ### What was pinned -/

/-- `str(definition_id)`, as a key. -/
def pinKey (id : UUID) : PyStr := PyStr.ofString id.text

theorem pinKey_inj {a b : UUID} : pinKey a = pinKey b ↔ a = b := by
  constructor
  · intro h
    exact UUID.ext (PyStr.ofString_injective h)
  · rintro rfl
    rfl

/-- Every agent of the document has what was recorded for its definition, and every definition that
    was recorded has an agent. -/
structure AgreesWithPins (current : RunManifest) (document : RunManifestDocument) : Prop where
  prompts : ∀ a ∈ document.agents,
    (pinKey a.definitionId, a.promptHash.text) ∈ current.promptHashes.entries
  models : ∀ a ∈ document.agents, ∀ i ∈ a.inference,
    (pinKey a.definitionId, .text i.model.text) ∈ current.modelPins.entries
  pinned : ∀ key, key ∈ current.promptHashes.entries.map Prod.fst
    ∨ key ∈ current.modelPins.entries.map Prod.fst →
      ∃ a ∈ document.agents, key = pinKey a.definitionId

/-- The last agent of a definition, of those that are looked at. -/
def lastOf (looked : AgentPin → Bool) (agents : List AgentPin) (id : UUID) : Option AgentPin :=
  agents.reverse.find? fun a => decide (a.definitionId = id) && looked a

/-- What the document says outside its agents is what was pinned. -/
structure SameRun (current : RunManifest) (document : RunManifestDocument) : Prop where
  workspaceId : document.workspaceId = current.workspaceId
  sessionId : document.sessionId = current.sessionId
  sourceSessionId : document.sourceSessionId = current.sourceSessionId
  manifestVersion : 1 = current.manifestVersion
  gitSha : document.code.gitSha = current.gitSha
  imageDigests : document.code.imageDigests.entries.map (fun e => (e.1, e.2.text))
    = current.imageDigests.entries

/-- What was recorded is what the last agents of the definitions have. -/
structure LastAgentsAgree (current : RunManifest) (document : RunManifestDocument) : Prop where
  prompts : ∀ key hash, (key, hash) ∈ current.promptHashes.entries ↔
    ∃ a, lastOf (fun _ => true) document.agents a.definitionId = some a
      ∧ key = pinKey a.definitionId ∧ hash = a.promptHash.text
  models : ∀ key model, (key, model) ∈ current.modelPins.entries ↔
    ∃ a i, lastOf (·.inference.isSome) document.agents a.definitionId = some a
      ∧ a.inference = some i ∧ key = pinKey a.definitionId ∧ model = .text i.model.text

/-- Agents of one definition have one prompt hash and one model. -/
def Uniform (document : RunManifestDocument) : Prop :=
  ∀ a ∈ document.agents, ∀ b ∈ document.agents, a.definitionId = b.definitionId →
    a.promptHash = b.promptHash ∧ ∀ i ∈ a.inference, ∀ j ∈ b.inference, i.model = j.model

theorem exists_lastOf (looked : AgentPin → Bool) {agents : List AgentPin} {a : AgentPin}
    (ha : a ∈ agents) (hlooked : looked a = true) :
    ∃ b ∈ agents, lastOf looked agents a.definitionId = some b ∧ b.definitionId = a.definitionId
      ∧ looked b = true := by
  have hsome : (lastOf looked agents a.definitionId).isSome := by
    apply List.find?_isSome.mpr
    refine ⟨a, List.mem_reverse.mpr ha, ?_⟩
    simp [hlooked]
  obtain ⟨b, hb⟩ := Option.isSome_iff_exists.mp hsome
  have hmatches := List.find?_some hb
  rw [Bool.and_eq_true, decide_eq_true_eq] at hmatches
  exact ⟨b, List.mem_reverse.mp (List.mem_of_find?_eq_some hb), hb, hmatches.1, hmatches.2⟩

theorem mem_of_lastOf {looked : AgentPin → Bool} {agents : List AgentPin} {id : UUID}
    {a : AgentPin} (h : lastOf looked agents id = some a) : a ∈ agents :=
  List.mem_reverse.mp (List.mem_of_find?_eq_some h)

/-- The dictionary of the agents has an entry for the last agent of each definition. -/
theorem mem_byDefinition {α : Type} {agents : List AgentPin} {value : AgentPin → Option α}
    {key : PyStr} {v : α} : (key, v) ∈ (byDefinition agents value).entries ↔
      ∃ a, lastOf (fun b => (value b).isSome) agents a.definitionId = some a
        ∧ key = pinKey a.definitionId ∧ value a = some v := by
  let pair := fun a : AgentPin => (value a).map fun v => (pinKey a.definitionId, v)
  have hmatches : ∀ a b : AgentPin, ((pair b).any fun f => decide (f.1 = pinKey a.definitionId))
      = (decide (b.definitionId = a.definitionId) && (value b).isSome) := by
    intro a b
    show (((value b).map fun v => (pinKey b.definitionId, v)).any _) = _
    cases value b with
    | none => simp
    | some v => simp [pinKey_inj]
  have hfind : ∀ a : AgentPin, (agents.filterMap pair).reverse.find?
        (fun f => decide (f.1 = pinKey a.definitionId))
      = (lastOf (fun b => (value b).isSome) agents a.definitionId).bind pair := by
    intro a
    rw [← List.filterMap_reverse, List.find?_filterMap]
    unfold lastOf
    simp only [hmatches a]
  show (key, v) ∈ sortByKey (dictOfPairs (agents.filterMap pair)) ↔ _
  rw [(sortByKey_perm _).mem_iff, mem_dictOfPairs_iff]
  constructor
  · intro h
    have hpair := List.mem_reverse.mp (List.mem_of_find?_eq_some h)
    obtain ⟨b, hb, hbv⟩ := List.mem_filterMap.mp hpair
    obtain ⟨w, -, hw⟩ := Option.map_eq_some_iff.mp hbv
    obtain ⟨rfl, rfl⟩ := Prod.mk.inj hw
    rw [hfind b] at h
    obtain ⟨a, ha, hav⟩ := Option.bind_eq_some_iff.mp h
    obtain ⟨x, hx, heq⟩ := Option.map_eq_some_iff.mp hav
    obtain ⟨hid, rfl⟩ := Prod.mk.inj heq
    rw [pinKey_inj] at hid
    rw [← hid] at ha
    exact ⟨a, ha, congrArg pinKey hid.symm, hx⟩
  · rintro ⟨a, ha, rfl, hv⟩
    rw [hfind a, ha, Option.bind_some]
    show (value a).map _ = _
    rw [hv, Option.map_some]

/-! ### What the validation compares -/

section Validation

variable {current : RunManifest} {document : RunManifestDocument}

/-- A dictionary of strings is equal to what is the same dictionary. -/
theorem pyEq_jsonMapping {m : Mapping String} {es : Entries} :
    Json.pyEq (jsonMapping m) (.obj es) = true ↔ es = Codec.string.dumpEntries m.entries := by
  unfold jsonMapping
  rw [Json.pyEq]
  induction m.entries generalizing es with
  | nil =>
    cases es with
    | nil => simp [Json.pyEqEntries, Codec.dumpEntries]
    | cons e es => simp [Json.pyEqEntries, Codec.dumpEntries]
  | cons f fs ih =>
    show Json.pyEqEntries ((f.1, .text f.2) :: Codec.string.dumpEntries fs) es = true
      ↔ es = (f.1, .text f.2) :: Codec.string.dumpEntries fs
    cases es with
    | nil => simp [Json.pyEqEntries]
    | cons e es =>
      have htext : ∀ j : Json, Json.pyEq (.text f.2) j = true ↔ j = .text f.2 := by
        intro j
        cases j <;> simp [Json.text, Json.pyEq, Json.number?, eq_comm]
      rw [Json.pyEqEntries, Bool.and_eq_true, Bool.and_eq_true, decide_eq_true_eq, htext, ih,
        List.cons.injEq, Prod.ext_iff, eq_comm (a := f.1)]

theorem ordered_modelPins (current : RunManifest) :
    Codec.Ordered (current.modelPins.entries.map Prod.fst) := by
  have hnormal := current.modelPins.normal
  rw [Json.Normal, Json.allObjects, Bool.and_eq_true, Bool.and_eq_true] at hnormal
  exact ⟨of_decide_eq_true hnormal.1.1, of_decide_eq_true hnormal.1.2⟩

theorem isScalar_byDefinition {α : Type} {agents : List AgentPin} {value : AgentPin → Option α} :
    ∀ e ∈ (byDefinition agents value).entries, Json.isScalar e.1 = true := by
  intro e he
  obtain ⟨a, -, hkey, -⟩ := mem_byDefinition.mp he
  rw [hkey]
  exact Json.isScalar_ofString _

/-- The prompts that are compared are those of the last agents. -/
theorem expectedPrompts_eq_iff :
    byDefinition document.agents (fun a => some a.promptHash.text) = current.promptHashes ↔
      ∀ key hash, (key, hash) ∈ current.promptHashes.entries ↔
        ∃ a, lastOf (fun _ => true) document.agents a.definitionId = some a
          ∧ key = pinKey a.definitionId ∧ hash = a.promptHash.text := by
  have hmem : ∀ key hash,
      (key, hash) ∈ (byDefinition document.agents fun a => some a.promptHash.text).entries ↔
        ∃ a, lastOf (fun _ => true) document.agents a.definitionId = some a
          ∧ key = pinKey a.definitionId ∧ hash = a.promptHash.text := by
    intro key hash
    rw [mem_byDefinition]
    simp only [Option.isSome_some, Option.some.injEq, eq_comm (a := hash)]
  constructor
  · intro h key hash
    rw [← h, hmem]
  · intro h
    have hentries : (byDefinition document.agents fun a => some a.promptHash.text).entries
        = current.promptHashes.entries := by
      apply eq_of_ordered (Mapping.ordered _) current.promptHashes.ordered isScalar_byDefinition
      intro e
      rw [hmem e.1 e.2, h e.1 e.2]
    cases hpins : current.promptHashes
    rw [hpins] at hentries
    cases hbuilt : byDefinition document.agents fun a => some a.promptHash.text
    rw [hbuilt] at hentries
    congr 1

/-- So are the models. -/
theorem expectedModels_eq_iff :
    current.modelPins.entries = Codec.string.dumpEntries
        (byDefinition document.agents fun a => a.inference.map (·.model.text)).entries ↔
      ∀ key model, (key, model) ∈ current.modelPins.entries ↔
        ∃ a i, lastOf (·.inference.isSome) document.agents a.definitionId = some a
          ∧ a.inference = some i ∧ key = pinKey a.definitionId ∧ model = .text i.model.text := by
  have hmem : ∀ key model, (key, model) ∈ Codec.string.dumpEntries
        (byDefinition document.agents fun a => a.inference.map (·.model.text)).entries ↔
      ∃ a i, lastOf (·.inference.isSome) document.agents a.definitionId = some a
        ∧ a.inference = some i ∧ key = pinKey a.definitionId ∧ model = .text i.model.text := by
    intro key model
    unfold Codec.dumpEntries
    rw [List.mem_map]
    constructor
    · rintro ⟨⟨k, v⟩, he, heq⟩
      obtain ⟨a, ha, hkey, hv⟩ := mem_byDefinition.mp he
      obtain ⟨i, hi, rfl⟩ := Option.map_eq_some_iff.mp hv
      simp only [Option.isSome_map] at ha
      obtain ⟨rfl, rfl⟩ := Prod.mk.inj heq
      exact ⟨a, i, ha, hi, hkey, rfl⟩
    · rintro ⟨a, i, ha, hi, rfl, rfl⟩
      refine ⟨(pinKey a.definitionId, i.model.text), mem_byDefinition.mpr ⟨a, ?_, rfl, ?_⟩, rfl⟩
      · simp only [Option.isSome_map]
        exact ha
      · rw [hi, Option.map_some]
  constructor
  · intro h key model
    rw [h, hmem]
  · intro h
    symm
    apply eq_of_ordered
    · rw [Codec.keys_dumpEntries]
      exact Mapping.ordered _
    · exact ordered_modelPins current
    · intro e he
      obtain ⟨a, -, -, -, hkey, -⟩ := (hmem e.1 e.2).mp he
      rw [hkey]
      exact Json.isScalar_ofString _
    · intro e
      rw [hmem e.1 e.2, h e.1 e.2]

/-- The texts of the conflicts of a validation. -/
def pinConflicts : List String :=
  ["final manifest differs from immutable creation pins",
    "final manifest agent pins differ from creation pins"]

theorem raiseIf_eq_ok {test : Bool} {e : PyException} :
    Marl.raiseIf test e = .ok () ↔ test = false := by
  cases test <;> simp [Marl.raiseIf]

theorem raiseIf_eq_error {test : Bool} {e e' : PyException}
    (h : Marl.raiseIf test e = .error e') : e' = e := by
  cases test
  · cases h
  · exact (Except.error.inj h).symm

/-- **Validation.**  It compares what the document says outside its agents, and of its agents the
    last of each definition. -/
theorem validateDocument_eq_ok : validateDocument current document = .ok () ↔
    SameRun current document ∧ LastAgentsAgree current document := by
  have hrun : (document.workspaceId ≠ current.workspaceId
      || document.sessionId ≠ current.sessionId
      || document.sourceSessionId ≠ current.sourceSessionId || 1 ≠ current.manifestVersion
      || document.code.gitSha ≠ current.gitSha
      || document.code.imageDigests.entries.map (fun e => (e.1, e.2.text))
        ≠ current.imageDigests.entries) = false ↔ SameRun current document := by
    simp only [ne_eq, decide_not, Bool.or_eq_false_iff, Bool.not_eq_false', decide_eq_true_eq]
    constructor
    · rintro ⟨⟨⟨⟨⟨hw, hn⟩, hsource⟩, hversion⟩, hgit⟩, himages⟩
      exact ⟨hw, hn, hsource, hversion, hgit, himages⟩
    · rintro ⟨hw, hn, hsource, hversion, hgit, himages⟩
      exact ⟨⟨⟨⟨⟨hw, hn⟩, hsource⟩, hversion⟩, hgit⟩, himages⟩
  have hagents : LastAgentsAgree current document ↔
      (!Json.pyEq (jsonMapping (byDefinition document.agents fun a =>
          a.inference.map (·.model.text))) (.obj current.modelPins.entries)
        || byDefinition document.agents (fun a => some a.promptHash.text)
          ≠ current.promptHashes) = false := by
    rw [Bool.or_eq_false_iff, Bool.not_eq_false', decide_eq_false_iff_not, not_not,
      expectedPrompts_eq_iff, pyEq_jsonMapping, expectedModels_eq_iff]
    exact ⟨fun h => ⟨h.models, h.prompts⟩, fun h => ⟨h.2, h.1⟩⟩
  rw [hagents, ← hrun]
  unfold validateDocument
  rw [Except.bind_eq_ok]
  constructor
  · rintro ⟨_, hsame, h⟩
    exact ⟨raiseIf_eq_ok.mp hsame, raiseIf_eq_ok.mp h⟩
  · rintro ⟨hsame, h⟩
    exact ⟨(), raiseIf_eq_ok.mpr hsame, raiseIf_eq_ok.mpr h⟩

theorem validateDocument_eq_error {e : PyException}
    (h : validateDocument current document = .error e) :
    ∃ message ∈ pinConflicts, e = runManifestConflict message := by
  unfold validateDocument at h
  rcases Except.bind_eq_error.mp h with hrun | ⟨-, -, hagents⟩
  · exact ⟨_, List.mem_cons_self, raiseIf_eq_error hrun⟩
  · exact ⟨_, List.mem_cons_of_mem _ List.mem_cons_self, raiseIf_eq_error hagents⟩

/-- What the last agents have is what all have, when they do not differ. -/
theorem LastAgentsAgree.agrees (h : LastAgentsAgree current document)
    (huniform : Uniform document) : AgreesWithPins current document where
  prompts a ha := by
    obtain ⟨b, hb, hlast, hid, -⟩ := exists_lastOf (fun _ => true) ha rfl
    rw [← hid] at hlast
    exact (h.prompts _ _).mpr ⟨b, hlast, by rw [hid], by rw [(huniform a ha b hb hid.symm).1]⟩
  models a ha i hi := by
    obtain ⟨b, hb, hlast, hid, hsome⟩ := exists_lastOf (·.inference.isSome) ha
      (Option.isSome_iff_exists.mpr ⟨i, hi⟩)
    obtain ⟨j, hj⟩ := Option.isSome_iff_exists.mp hsome
    rw [← hid] at hlast
    have hmodel := (huniform a ha b hb hid.symm).2 i hi j hj
    exact (h.models _ _).mpr ⟨b, j, hlast, hj, by rw [hid], by rw [hmodel]⟩
  pinned key hkey := by
    rcases hkey with hkey | hkey
    · obtain ⟨e, he, rfl⟩ := List.mem_map.mp hkey
      obtain ⟨a, hlast, hkey, -⟩ := (h.prompts e.1 e.2).mp he
      exact ⟨a, mem_of_lastOf hlast, hkey⟩
    · obtain ⟨e, he, rfl⟩ := List.mem_map.mp hkey
      obtain ⟨a, -, hlast, -, hkey, -⟩ := (h.models e.1 e.2).mp he
      exact ⟨a, mem_of_lastOf hlast, hkey⟩

/-- One value is recorded for a definition. -/
theorem AgreesWithPins.uniform (h : AgreesWithPins current document) : Uniform document := by
  intro a ha b hb hid
  have hpromptKeys := current.promptHashes.ordered.1
  have hmodelKeys := (ordered_modelPins current).1
  have hb' := h.prompts b hb
  rw [← hid] at hb'
  constructor
  · have hsame := List.inj_on_of_nodup_map hpromptKeys (h.prompts a ha) hb' rfl
    exact Marl.Text.eq_of_text_eq (Prod.mk.inj hsame).2
  · intro i hi j hj
    have hj' := h.models b hb j hj
    rw [← hid] at hj'
    have hsame := List.inj_on_of_nodup_map hmodelKeys (h.models a ha i hi) hj' rfl
    have htext := PyStr.ofString_injective (Json.str.inj (Prod.mk.inj hsame).2)
    exact Marl.Text.eq_of_text_eq htext

end Validation

/-! ### What raises a conflict -/

/-- The conflicts of a validation are raised by nothing else that is done before a manifest is
    stored. -/
def IsPinConflict (e : PyException) : Prop :=
  ∃ message ∈ pinConflicts, e = runManifestConflict message

theorem not_isPinConflict {message : String} (h : message ∉ pinConflicts) :
    ¬ IsPinConflict (.valueError message) := by
  rintro ⟨other, hother, heq⟩
  have hsame : message = other := congrArg PyException.message heq
  exact h (hsame ▸ hother)

mutual
theorem jsonValue_ne_conflict : ∀ (j : Json) {e : PyException}, j.jsonValue = .error e →
    ¬ IsPinConflict e
  | .null, _, h | .bool _, _, h | .int _, _, h => nomatch h
  | .float m x, e, h => by
    rw [Json.jsonValue] at h
    split_ifs at h
    · rw [← Except.error.inj h]
      exact not_isPinConflict (by decide)
    · rw [← Except.error.inj h]
      exact not_isPinConflict (by decide)
  | .str s, e, h => by
    rw [Json.jsonValue] at h
    split_ifs at h
    rw [← Except.error.inj h]
    exact not_isPinConflict (by decide)
  | .arr items, _, h => jsonItems_ne_conflict items h
  | .obj entries, _, h => jsonEntries_ne_conflict entries h
theorem jsonItems_ne_conflict : ∀ (items : List Json) {e : PyException},
    Json.jsonItems items = .error e → ¬ IsPinConflict e
  | [], _, h => nomatch h
  | j :: items, e, h => by
    rcases Except.bind_eq_error.mp h with h | ⟨-, -, h⟩
    · exact jsonValue_ne_conflict j h
    · exact jsonItems_ne_conflict items h
theorem jsonEntries_ne_conflict : ∀ (entries : List (PyStr × Json)) {e : PyException},
    Json.jsonEntries entries = .error e → ¬ IsPinConflict e
  | [], _, h => nomatch h
  | (_, v) :: entries, e, h => by
    rcases Except.bind_eq_error.mp h with h | ⟨-, -, h⟩
    · exact jsonValue_ne_conflict v h
    · exact jsonEntries_ne_conflict entries h
end

theorem canonicalJson_ne_conflict {j : Json} {e : PyException} (h : j.canonicalJson = .error e) :
    ¬ IsPinConflict e := by
  rcases Except.bind_eq_error.mp h with h | ⟨-, -, h⟩
  · exact jsonValue_ne_conflict j h
  · split_ifs at h
    rw [← Except.error.inj h]
    exact not_isPinConflict (by decide)

theorem bytesText_ne_conflict {b : Bytes} {e : PyException} (h : bytesText b = .error e) :
    ¬ IsPinConflict e := by
  unfold bytesText at h
  split at h
  · cases h
  · rw [← Except.error.inj h]
    exact not_isPinConflict (by decide)

theorem bundleText_ne_conflict {b : Replay.MarlReplayBundle} {e : PyException}
    (h : bundleText b = .error e) : ¬ IsPinConflict e := by
  rcases Except.bind_eq_error.mp h with hmanifest | ⟨_, -, hrest⟩
  · exact bytesText_ne_conflict hmanifest
  · rcases Except.bind_eq_error.mp hrest with htrajectory | ⟨_, -, hpure⟩
    · exact bytesText_ne_conflict htrajectory
    · cases hpure

theorem bundles_ne_conflict {bundles : List Replay.MarlReplayBundle} {e : PyException}
    (h : bundles.mapM bundleText = .error e) : ¬ IsPinConflict e := by
  induction bundles with
  | nil => cases h
  | cons b bundles ih =>
    rw [List.mapM_cons] at h
    rcases Except.bind_eq_error.mp h with hfirst | ⟨_, -, hrest⟩
    · exact bundleText_ne_conflict hfirst
    · rcases Except.bind_eq_error.mp hrest with hbundles | ⟨_, -, hpure⟩
      · exact ih hbundles
      · cases hpure

section Finalize

variable [Runtime] {current : RunManifest} {document : RunManifestDocument}

theorem modelDump_ne_conflict {e : PyException} (h : document.modelDump = .error e) :
    ¬ IsPinConflict e := by
  rcases Except.bind_eq_error.mp h with hbundles | ⟨_, -, hpure⟩
  · exact bundles_ne_conflict hbundles
  · cases hpure

/-- A document that has no hash has none for another reason. -/
theorem runManifestHash_ne_conflict {e : PyException} (h : document.runManifestHash = .error e) :
    ¬ IsPinConflict e := by
  rcases Except.bind_eq_error.mp h with hdump | ⟨j, -, hhash⟩
  · exact modelDump_ne_conflict hdump
  · rcases Except.bind_eq_error.mp hhash with hbytes | ⟨_, -, hpure⟩
    · exact canonicalJson_ne_conflict hbytes
    · cases hpure

/-! ### Finalizing -/

variable {σ : Type} {service : RunManifestService σ} {s : ManifestState σ} {finalizedAt : Datetime}

/-- What is refused is refused before anything is stored. -/
theorem finalize_of_validateDocument_error {e : PyException}
    (hcurrent : s.getForSession current.workspaceId current.sessionId = some current)
    (h : validateDocument current document = .error e) :
    service.finalize current.workspaceId current.sessionId document finalizedAt s
      = (.error e, s) := by
  unfold RunManifestService.finalize
  rw [read_bind, hcurrent]
  show andThen _ (.ok current, s) = _
  rw [andThen_ok, bind_apply, lift_apply, h]
  rfl

/-- The pins of creation are enforced: whatever holds the manifest, a document is accepted only if
    all its agents agree with them, and one that does not agree is refused and nothing is stored. -/
def EnforcesPins (current : RunManifest) (document : RunManifestDocument) : Prop :=
  ∀ (σ : Type) (service : RunManifestService σ) (s : ManifestState σ) (finalizedAt : Datetime),
    s.getForSession current.workspaceId current.sessionId = some current →
      (∀ m s', service.finalize current.workspaceId current.sessionId document finalizedAt s
          = (.ok m, s') → AgreesWithPins current document)
        ∧ (¬ AgreesWithPins current document → ∃ message ∈ pinConflicts,
          service.finalize current.workspaceId current.sessionId document finalizedAt s
            = (.error (runManifestConflict message), s))

omit [Runtime] in
/-- The row of a manifest that was created. -/
def createdRow (m : RunManifest) (h : m.status = .created) : RunManifestRow where
  id := m.id
  workspaceId := m.workspaceId
  sessionId := m.sessionId
  sourceSessionId := m.sourceSessionId
  manifestVersion := m.manifestVersion
  status := m.status
  manifestBucket := none
  manifestRef := none
  manifestHash := none
  manifestSize := none
  gitSha := m.gitSha
  imageDigests := m.imageDigests
  modelPins := m.modelPins
  promptHashes := m.promptHashes
  seed := m.seed
  createdAt := m.createdAt
  finalizedAt := none
  positive_version := m.positive_version
  source_differs := m.other_source
  created_shape _ := ⟨rfl, rfl, rfl, rfl, rfl⟩
  finalized_shape hfinal := by
    rw [h] at hfinal
    cases hfinal

omit [Runtime] in
theorem manifest_createdRow (m : RunManifest) (h : m.status = .created) :
    (createdRow m h).manifest = m := by
  obtain ⟨href, hhash, hat⟩ := m.created_shape h
  cases m
  simp only at href hhash hat
  subst href hhash hat
  rfl

/-- A table with one manifest, and nothing stored. -/
def createdState (m : RunManifest) (h : m.status = .created) :
    ManifestState (String × String → Option Bytes) where
  rows := [createdRow m h]
  objects _ := none
  unique_ids := by simp

omit [Runtime] in
theorem getForSession_createdRow {m : RunManifest} {h : m.status = .created}
    {s : ManifestState σ} (hrows : s.rows = [createdRow m h]) :
    s.getForSession m.workspaceId m.sessionId = some m := by
  have hfind : s.rows.find? (fun row =>
      decide (row.workspaceId = m.workspaceId ∧ row.sessionId = m.sessionId))
        = some (createdRow m h) := by
    rw [hrows]
    exact List.find?_cons_of_pos (decide_eq_true ⟨rfl, rfl⟩)
  unfold ManifestState.getForSession
  rw [hfind, Option.map_some, manifest_createdRow]

omit [Runtime] in
/-- The only row of a table is finalized. -/
theorem exists_repositoryFinalize {requested : RunManifest} {stored : ObjectRef} {size : ℕ}
    {hash : Marl.Hash} {hcreated : current.status = .created}
    (hrows : s.rows = [createdRow current hcreated]) (hid : requested.id = current.id)
    (hworkspace : requested.workspaceId = current.workspaceId)
    (hsession : requested.sessionId = current.sessionId) (hstatus : requested.status = .finalized)
    (hstored : requested.manifestRef = some stored) (hsize : stored.size = some size)
    (hhash : requested.manifestHash = some hash)
    (hat : requested.finalizedAt = some finalizedAt) :
    ∃ m after, repositoryFinalize ⟨fun _ => true⟩ requested s = (.ok m, after) := by
  have hcurrent := getForSession_createdRow hrows
  have hopen : ¬ current.status = .finalized := by
    rw [hcreated]
    decide
  have hrow : s.rows.find? (fun row => decide (row.id = requested.id))
      = some (createdRow current hcreated) := by
    rw [hrows, hid]
    exact List.find?_cons_of_pos (decide_eq_true rfl)
  obtain ⟨updated, hupdated⟩ : ∃ updated, (createdRow current hcreated).finalize stored
      requested.manifestHash requested.finalizedAt = some updated := by
    unfold RunManifestRow.finalize
    rw [hhash, hsize, hat]
    exact ⟨_, rfl⟩
  refine ⟨requested, s.setRow updated, ?_⟩
  unfold repositoryFinalize
  refine ensure_bind_eq_ok.mpr ⟨hstatus, required_bind_eq_ok.mpr ⟨stored, hstored, ?_⟩⟩
  rw [read_bind, hworkspace, hsession, hcurrent]
  refine required_bind_eq_ok.mpr ⟨current, rfl, ?_⟩
  rw [if_neg hopen, read_bind, hrow]
  refine required_bind_eq_ok.mpr ⟨_, rfl, required_bind_eq_ok.mpr ⟨_, hupdated, ?_⟩⟩
  exact ensure_bind_eq_ok.mpr ⟨⟨hcreated, rfl⟩, rfl⟩

omit [Runtime] in
theorem sampleObjects_put (bucket key : String) (body : Bytes) (contentType : String)
    (metadata : List (String × String)) (objects : String × String → Option Bytes) :
    sampleObjects.put bucket key body contentType metadata objects
      = (.ok ⟨bucket, key, (Marl.sha256Hash body).text, contentType, some body.length⟩,
        fun k => if k = (bucket, key) then some body else objects k) := rfl

/-- What passes the validation and has bytes is finalized. -/
theorem exists_finalize_created (hcreated : current.status = .created)
    (hvalid : validateDocument current document = .ok ()) {body : Bytes}
    (hbody : document.runManifestBytes = .ok body) (finalizedAt : Datetime) : ∃ m after,
      sampleService.finalize current.workspaceId current.sessionId document finalizedAt
        (createdState current hcreated) = (.ok m, after) := by
  have hhash := (runManifestHash_eq_ok hbody).mpr rfl
  have hsession := getForSession_createdRow (s := createdState current hcreated) rfl
  let stored : ObjectRef := ⟨"manifests", "workspaces/" ++ current.workspaceId.text ++ "/manifests/"
    ++ removePrefix (Marl.sha256Hash body) ++ ".json", (Marl.sha256Hash body).text,
    "application/json", some body.length⟩
  let requested : RunManifest :=
    { current with
      status := .finalized
      manifestRef := some stored
      manifestHash := some (Marl.sha256Hash body)
      finalizedAt := some finalizedAt
      created_shape := fun h => by injection h
      finalized_shape := fun _ => ⟨rfl, rfl, rfl⟩ }
  let objects : String × String → Option Bytes := fun k =>
    if k = (stored.bucket, stored.key) then some body else none
  let written := (createdState current hcreated).setObjects objects
  obtain ⟨m, after, hfinal⟩ : ∃ m after,
      repositoryFinalize ⟨fun _ => true⟩ requested written = (.ok m, after) := by
    have hstored : requested.manifestRef = some stored := rfl
    have hrows : written.rows = [createdRow current hcreated] := rfl
    exact exists_repositoryFinalize hrows rfl rfl rfl rfl hstored rfl rfl rfl
  refine ⟨m, after, ?_⟩
  unfold RunManifestService.finalize
  rw [read_bind, hsession]
  refine required_bind_eq_ok.mpr ⟨current, rfl, lift_bind_eq_ok.mpr ⟨(), hvalid, ?_⟩⟩
  refine lift_bind_eq_ok.mpr ⟨_, hhash, lift_bind_eq_ok.mpr ⟨_, hbody, ?_⟩⟩
  refine bind_eq_ok.mpr ⟨stored, written, ?_, ?_⟩
  · exact zoom_eq_ok.mpr ⟨objects, sampleObjects_put _ _ _ _ _ _, rfl⟩
  · exact ensure_bind_eq_ok.mpr ⟨rfl, hfinal⟩

/-- What passes the validation is not refused as a conflict of its pins. -/
theorem finalize_created_ne_conflict (hcreated : current.status = .created)
    (hvalid : validateDocument current document = .ok ()) {e : PyException}
    (h : (sampleService.finalize current.workspaceId current.sessionId document finalizedAt
      (createdState current hcreated)).1 = .error e) : ¬ IsPinConflict e := by
  cases hhash : document.runManifestHash with
  | error e' =>
    unfold RunManifestService.finalize at h
    rw [read_bind, getForSession_createdRow (s := createdState current hcreated) rfl] at h
    change (andThen _ (.ok current, createdState current hcreated)).1 = _ at h
    rw [andThen_ok, bind_apply, lift_apply, hvalid, andThen_ok, bind_apply, lift_apply, hhash,
      andThen_error] at h
    rw [← Except.error.inj h]
    exact runManifestHash_ne_conflict hhash
  | ok digest =>
    obtain ⟨j, hj, hdigest⟩ := Except.bind_eq_ok.mp hhash
    obtain ⟨body, hbytes, -⟩ := Except.bind_eq_ok.mp hdigest
    have hbody : document.runManifestBytes = .ok body := Except.bind_eq_ok.mpr ⟨j, hj, hbytes⟩
    obtain ⟨m, after, hok⟩ := exists_finalize_created hcreated hvalid hbody finalizedAt
    rw [hok] at h
    cases h

/-- **Pins of creation.**  They are enforced for every agent of a document exactly when its agents
    of one definition do not differ, or it differs anyway from what was pinned: outside its agents,
    or in the last agents of its definitions. -/
theorem enforcesPins_iff (hcreated : current.status = .created) :
    EnforcesPins current document ↔
      Uniform document ∨ ¬ (SameRun current document ∧ LastAgentsAgree current document) := by
  constructor
  · intro henforced
    by_contra hnot
    rw [not_or, not_not] at hnot
    obtain ⟨hdiffer, hpins⟩ := hnot
    have hvalid := validateDocument_eq_ok.mpr hpins
    obtain ⟨-, hrefused⟩ := henforced _ sampleService (createdState current hcreated)
      current.createdAt (getForSession_createdRow rfl)
    obtain ⟨message, hmessage, hraised⟩ := hrefused fun hagrees => hdiffer hagrees.uniform
    exact finalize_created_ne_conflict hcreated hvalid (congrArg Prod.fst hraised)
      ⟨message, hmessage, rfl⟩
  · intro h σ service s finalizedAt hcurrent
    by_cases hpins : SameRun current document ∧ LastAgentsAgree current document
    · have hagrees := hpins.2.agrees (h.resolve_right fun hnot => hnot hpins)
      exact ⟨fun _ _ _ => hagrees, fun hnot => absurd hagrees hnot⟩
    · cases hvalid : validateDocument current document with
      | ok u => exact absurd (validateDocument_eq_ok.mp hvalid) hpins
      | error e =>
        have hrefused : service.finalize current.workspaceId current.sessionId document
            finalizedAt s = (.error e, s) := finalize_of_validateDocument_error hcurrent hvalid
        obtain ⟨message, hmessage, rfl⟩ := validateDocument_eq_error hvalid
        constructor
        · intro m s' haccepted
          rw [hrefused, Prod.mk.injEq] at haccepted
          exact absurd haccepted.1 nofun
        · intro _
          exact ⟨message, hmessage, hrefused⟩

end Finalize

/-! ### Two versions of a definition -/

section Samples

attribute [local instance] zuluRuntime

def otherHash : Marl.Hash :=
  ⟨"sha256:0000000000000000000000000000000000000000000000000000000000000000", Ledger.genesisHash.isValid⟩

def agentVersion (version : ℕ+) (promptHash : Marl.Hash) : AgentPin where
  definitionId := sampleId 1
  definitionVersion := version
  promptRef := word
  promptHash := promptHash
  strategyId := word
  strategyVersion := word

/-- The second version has the prompt hash that was recorded, the first another. -/
def shadowedDocument : RunManifestDocument :=
  { sampleDocument 2 with
    agents := [agentVersion 1 otherHash, agentVersion 2 emptyHash]
    required_pins :=
      { (sampleDocument 2).required_pins with
        some_agents := by simp
        unique_agents := by
          show [(sampleId 1, (1 : ℕ+)), (sampleId 1, 2)].Nodup
          decide } }

theorem shadowedDocument_bytes : ∃ body, shadowedDocument.runManifestBytes = .ok body := by
  refine ⟨_, runManifestBytes_eq_ok.mpr ⟨_, rfl, ?_, rfl⟩⟩
  decide +kernel

/-- The document is finalized, though its first agent does not have the hash that was recorded. -/
theorem finalize_shadowedDocument :
    (∃ m after, sampleService.finalize sampleRow.manifest.workspaceId sampleRow.manifest.sessionId
        shadowedDocument start (createdState sampleRow.manifest rfl) = (.ok m, after))
      ∧ ¬ AgreesWithPins sampleRow.manifest shadowedDocument := by
  constructor
  · obtain ⟨body, hbody⟩ := shadowedDocument_bytes
    have hvalid : validateDocument sampleRow.manifest shadowedDocument = .ok () := by rfl
    exact exists_finalize_created rfl hvalid hbody start
  · intro h
    have hfirst : (pinKey (sampleId 1), otherHash.text)
        ∈ sampleRow.manifest.promptHashes.entries := h.prompts (agentVersion 1 otherHash)
          List.mem_cons_self
    exact absurd hfirst (by decide)

/-- One version of the definition. -/
theorem enforcesPins_sample : EnforcesPins sampleRow.manifest (sampleDocument 2) := by
  refine (enforcesPins_iff rfl).mpr (.inl ?_)
  intro a ha b hb _
  obtain rfl := List.mem_singleton.mp ha
  obtain rfl := List.mem_singleton.mp hb
  exact ⟨rfl, nofun⟩

end Samples

end Agora.Manifest
