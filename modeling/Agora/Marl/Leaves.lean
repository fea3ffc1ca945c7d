import Agora.Lib.JsonLeaves
import Agora.Marl.RoundTrip
import Mathlib.Algebra.Group.Action.Defs
import Mathlib.Algebra.Order.BigOperators.Group.List

namespace Agora.Marl

/-!
# Leaves of the contracts

Apart from payloads and feature values, the strings of a dump are short and its integers are
indices, so a test of leaves passes on a model when it passes on its numbers and its parts.  With
`encodable` as the test this says which models have a hash, and which episodes can be exported
(`exists_exportEpisode`).
-/

/-- A test of the leaves that short strings and the schema version pass. -/
structure LeafTest (p : PyStr → Bool) (q : ℤ → Bool) : Prop where
  short : ∀ s : String, s.length ≤ 128 → p (PyStr.ofString s) = true
  one : q 1 = true

theorem leafTest_encodable : LeafTest Json.isScalar Json.isPrintable where
  short s _ := Json.isScalar_ofString s
  one := by decide

theorem leafTest_isShort : LeafTest Json.isShort fun _ => true where
  short s h := by
    rw [Json.isShort, PyStr.ofString, PyStr.ofChars, List.length_map, String.length_toList]
    exact decide_eq_true h
  one := rfl

/-! ### Texts -/

theorem length_le_of_matchesShape {first rest : Char → Bool} {n : ℕ} {s : String}
    (h : matchesShape first rest n s = true) : s.length ≤ n + 1 := by
  rw [matchesShape] at h
  rw [← String.length_toList]
  split at h
  case h_1 => cases h
  case h_2 c cs heq =>
    rw [heq, List.length_cons]
    simp only [Bool.and_eq_true, decide_eq_true_eq] at h
    omega

theorem length_hash (h : Hash) : h.text.length = 71 := by
  have hvalid := h.isValid
  simp only [isHash, Bool.and_eq_true, decide_eq_true_eq] at hvalid
  obtain ⟨⟨-, hdrop⟩, -⟩ := hvalid
  rw [List.length_drop, String.length_toList] at hdrop
  omega

section Leaves

variable {p : PyStr → Bool} {q : ℤ → Bool} (h : LeafTest p q)

include h

theorem leaves_text {valid : String → Bool} (hvalid : ∀ s, valid s = true → s.length ≤ 128)
    (t : Text valid) : ((Text.codec valid).dump t).allLeaves p q = true :=
  h.short t.text (hvalid t.text t.isValid)

theorem leaves_hash (t : Hash) : ((Text.codec isHash).dump t).allLeaves p q = true :=
  h.short t.text (by rw [length_hash]; decide)

theorem leaves_identifier (t : Identifier) :
    ((Text.codec isIdentifier).dump t).allLeaves p q = true :=
  leaves_text h (fun _ hs => length_le_of_matchesShape hs) t

theorem leaves_version (t : Version) : ((Text.codec isVersion).dump t).allLeaves p q = true :=
  leaves_text h (fun _ hs => length_le_of_matchesShape hs) t

theorem leaves_reason (t : Reason) : ((Text.codec isReason).dump t).allLeaves p q = true :=
  leaves_text h (fun _ hs => (length_le_of_matchesShape hs).trans (by decide)) t

theorem leaves_reasonCode (t : ReasonCode) :
    ((Text.codec isReasonCode).dump t).allLeaves p q = true := by
  refine leaves_text h (fun s hs => ?_) t
  simp only [isReasonCode, Bool.and_eq_true, decide_eq_true_eq] at hs
  omega

theorem leaves_implementation (r : ImplementationRefV1) :
    (ImplementationRefV1.codec.dump r).allLeaves p q = true := by
  show Json.allLeavesEntries p q [(PyStr.ofString "implementation_id", _),
    (PyStr.ofString "implementation_version", _)] = true
  simp only [Json.allLeavesEntries, h.short "implementation_id" (by decide),
    h.short "implementation_version" (by decide), leaves_identifier h, leaves_version h,
    Bool.and_true]

theorem leaves_uuid [Runtime] (u : UUID) : (uuidCodec.dump u).allLeaves p q = true := by
  refine h.short u.text ?_
  have hcanonical := u.canonical
  simp only [isCanonicalUuid, Bool.and_eq_true, beq_iff_eq] at hcanonical
  rw [← String.length_toList, hcanonical.1]
  decide

omit h in
theorem leaves_option {α : Type} {c : Codec α} {x : Option α}
    (hx : ∀ a ∈ x, (c.dump a).allLeaves p q = true) (hne : ∀ a, c.dump a ≠ .null) :
    ((c.option hne).dump x).allLeaves p q = true := by
  cases x with
  | none => rfl
  | some a => exact hx a rfl

omit h in
theorem leaves_list {α : Type} {c : Codec α} {l : List α}
    (hl : ∀ a ∈ l, (c.dump a).allLeaves p q = true) : (c.list.dump l).allLeaves p q = true := by
  refine Json.allLeavesItems_iff.mpr fun j hj => ?_
  obtain ⟨a, ha, rfl⟩ := List.mem_map.mp hj
  exact hl a ha

end Leaves

section Models

variable [Runtime] {p : PyStr → Bool} {q : ℤ → Bool} (h : LeafTest p q)

include h

omit [Runtime] h in
theorem leaves_nat (n : ℕ) : (Codec.nat.dump n).allLeaves p q = q n := rfl

omit [Runtime] h in
theorem leaves_bool (b : Bool) : (Codec.bool.dump b).allLeaves p q = true := rfl

theorem leaves_observation {o : MarlObservation} (hindex : q o.decisionIndex = true)
    (hseq : q o.ledgerSeq = true)
    (hsources : ∀ s ∈ o.sources, (Hashed.codec.dump s).allLeaves p q = true)
    (hfeatures : ∀ f ∈ o.features, (Hashed.codec.dump f).allLeaves p q = true) :
    (Hashed.preimage o).allLeaves p q = true := by
  have hreason := leaves_option (x := o.terminalReason) (fun t _ => leaves_reasonCode h t)
    Text.codec_dump_ne
  have hevent := leaves_option (x := o.ledgerEventId) (fun u _ => leaves_uuid h u) (by rintro _ ⟨⟩)
  have hsources := leaves_list hsources
  have hfeatures := leaves_list hfeatures
  simp (disch := decide) only [Hashed.preimage, HashedModel.before, HashedModel.after, HashedModel.repr,
    Fields.dump_append, Fields.dump_one, Fields.dump_field, Fields.dump_schemaVersion,
    Json.allLeaves, Json.allLeavesEntries_append, Json.allLeavesEntries, leaves_hash h,
    leaves_identifier h, leaves_uuid h, leaves_implementation h, leaves_nat, leaves_bool, hreason,
    hevent, hsources, hfeatures, hindex, hseq, h.one, h.short, Bool.and_true]

theorem leaves_proposedAction {a : ProposedAction} (hindex : q a.decisionIndex = true)
    (hseed : q a.seed = true) (hpayload : a.payload.val.allLeaves p q = true) :
    (Hashed.preimage a).allLeaves p q = true := by
  have hagents := leaves_list (l := a.agentDefinitionIds) fun u _ => leaves_uuid h u
  have hkind : (ActionKind.codec.dump a.kind).allLeaves p q = true := by
    cases a.kind <;> exact h.short _ (by decide)
  simp (disch := decide) only [Hashed.preimage, HashedModel.before, HashedModel.after,
    HashedModel.repr, Fields.dump_append, Fields.dump_nil, Fields.dump_oneDefault, Fields.dump_field,
    Fields.dump_schemaVersion, Json.allLeaves, Json.allLeavesEntries_append, Json.allLeavesEntries,
    leaves_hash h, leaves_uuid h, leaves_implementation h, leaves_nat, hagents, hkind, hindex,
    h.one, h.short, Bool.and_true, Bool.true_and]
  rw [Bool.and_eq_true]
  exact ⟨hpayload, hseed⟩

theorem leaves_coordinatorDecision {d : CoordinatorDecision} (hindex : q d.decisionIndex = true) :
    (Hashed.preimage d).allLeaves p q = true := by
  have hproposal := leaves_option (x := d.proposalHash) (fun t _ => leaves_hash h t) nofun
  have hexecuted := leaves_option (x := d.executedActionHash) (fun t _ => leaves_hash h t) nofun
  have houtcome : (DecisionOutcome.codec.dump d.outcome).allLeaves p q = true := by
    cases d.outcome <;> exact h.short _ (by decide)
  have hfeasibility : (Feasibility.codec.dump d.feasibilityStatus).allLeaves p q = true := by
    cases d.feasibilityStatus <;> exact h.short _ (by decide)
  simp (disch := decide) only [Hashed.preimage, HashedModel.before, HashedModel.after,
    HashedModel.repr, Fields.dump_append, Fields.dump_one, Fields.dump_field,
    Fields.dump_schemaVersion, Json.allLeaves, Json.allLeavesEntries_append, Json.allLeavesEntries,
    leaves_hash h, leaves_uuid h, leaves_reason h, leaves_implementation h, leaves_nat, hproposal,
    hexecuted, houtcome, hfeasibility, hindex, h.one, h.short, Bool.and_true]

theorem leaves_decisionBoundary {b : DecisionBoundary} (hindex : q b.decisionIndex = true)
    (hobservation : (Hashed.codec.dump b.observation).allLeaves p q = true)
    (hproposed : ∀ a ∈ b.proposedAction, (Hashed.codec.dump a).allLeaves p q = true)
    (hdecision : (Hashed.codec.dump b.coordinatorDecision).allLeaves p q = true)
    (hexecuted : ∀ a ∈ b.executedAction, (Hashed.codec.dump a).allLeaves p q = true) :
    (Hashed.preimage b).allLeaves p q = true := by
  have hproposed := leaves_option hproposed Hashed.codec_dump_ne
  have hexecuted := leaves_option hexecuted Hashed.codec_dump_ne
  simp (disch := decide) only [Hashed.preimage, HashedModel.before, HashedModel.after,
    HashedModel.repr, Hashed.optionCodec, Fields.dump_append, Fields.dump_nil, Fields.dump_one,
    Fields.dump_field, Fields.dump_constant, Fields.dump_schemaVersion, Json.allLeaves,
    Json.allLeavesEntries_append, Json.allLeavesEntries, leaves_uuid h, leaves_nat, hobservation,
    hproposed, hdecision, hexecuted, hindex, h.one, h.short, Bool.and_true, Bool.true_and]
  exact h.short "decision_boundary" (by decide)

omit [Runtime] in
theorem leaves_rational {r : RationalV1} (hnumerator : q r.numerator = true)
    (hdenominator : q r.denominator = true) : (RationalV1.codec.dump r).allLeaves p q = true := by
  show Json.allLeavesEntries p q [(PyStr.ofString "denominator", .int r.denominator),
    (PyStr.ofString "numerator", .int r.numerator)] = true
  simp (disch := decide) only [Json.allLeavesEntries, Json.allLeaves, h.short, hnumerator,
    hdenominator, Bool.and_true]

theorem leaves_rewardComponent {r : RewardComponent} (hindex : q r.decisionIndex = true)
    (hordinal : q r.ordinal = true)
    (hpre : ∀ x ∈ r.preMetricValue, (RationalV1.codec.dump x).allLeaves p q = true)
    (hpost : ∀ x ∈ r.postMetricValue, (RationalV1.codec.dump x).allLeaves p q = true)
    (hvalue : (RationalV1.codec.dump r.rewardValue).allLeaves p q = true) :
    (Hashed.preimage r).allLeaves p q = true := by
  have hpre := leaves_option hpre (by rintro _ ⟨⟩)
  have hpost := leaves_option hpost (by rintro _ ⟨⟩)
  have hreason := leaves_option (x := r.neutralReason) (fun t _ => leaves_reasonCode h t)
    Text.codec_dump_ne
  have hsources := leaves_list (l := r.sourceHashes) fun t _ => leaves_hash h t
  have hdirection : (RewardDirection.codec.dump r.direction).allLeaves p q = true := by
    cases r.direction <;> exact h.short _ (by decide)
  have hstatus : (RewardStatus.codec.dump r.status).allLeaves p q = true := by
    cases r.status <;> exact h.short _ (by decide)
  simp (disch := decide) only [Hashed.preimage, HashedModel.before, HashedModel.after,
    HashedModel.repr, Fields.dump_append, Fields.dump_nil, Fields.dump_one, Fields.dump_field,
    Fields.dump_schemaVersion, Json.allLeaves, Json.allLeavesEntries_append, Json.allLeavesEntries,
    leaves_identifier h, leaves_version h, leaves_uuid h, leaves_implementation h, leaves_nat, hpre,
    hpost, hvalue, hreason, hsources, hdirection, hstatus, hindex, hordinal, h.one, h.short,
    Bool.and_true]

theorem leaves_creditAssignment {c : CreditAssignment} (hindex : q c.decisionIndex = true)
    (hshare : (RationalV1.codec.dump c.share).allLeaves p q = true)
    (hvalue : (RationalV1.codec.dump c.creditedValue).allLeaves p q = true) :
    (Hashed.preimage c).allLeaves p q = true := by
  have hagents := leaves_list (l := c.agentDefinitionIds) fun u _ => leaves_uuid h u
  have hsources := leaves_list (l := c.sourceHashes) fun t _ => leaves_hash h t
  have hstatus : (CreditStatus.codec.dump c.status).allLeaves p q = true := by
    cases c.status <;> exact h.short _ (by decide)
  simp (disch := decide) only [Hashed.preimage, HashedModel.before, HashedModel.after,
    HashedModel.repr, Fields.dump_append, Fields.dump_one, Fields.dump_field,
    Fields.dump_schemaVersion, Json.allLeaves, Json.allLeavesEntries_append, Json.allLeavesEntries,
    leaves_hash h, leaves_uuid h, leaves_implementation h, leaves_nat, hshare, hvalue, hagents,
    hsources, hstatus, hindex, h.one, h.short, Bool.and_true]

theorem leaves_transition {t : Transition} (hindex : q t.decisionIndex = true)
    (hboundary : (Hashed.codec.dump t.boundary).allLeaves p q = true)
    (hpost : (Hashed.codec.dump t.postObservation).allLeaves p q = true)
    (hrewards : ∀ r ∈ t.rewards, (Hashed.codec.dump r).allLeaves p q = true)
    (hcredits : ∀ c ∈ t.credits, (Hashed.codec.dump c).allLeaves p q = true) :
    (Hashed.preimage t).allLeaves p q = true := by
  have hrewards := leaves_list hrewards
  have hcredits := leaves_list hcredits
  have hrecord : ((Codec.literalText "transition").dump ()).allLeaves p q = true :=
    h.short "transition" (by decide)
  simp (disch := decide) only [Hashed.preimage, HashedModel.before, HashedModel.after,
    HashedModel.repr, Fields.dump_append, Fields.dump_nil, Fields.dump_one, Fields.dump_field,
    Fields.dump_constant, Fields.dump_schemaVersion, Json.allLeaves, Json.allLeavesEntries_append,
    Json.allLeavesEntries, leaves_uuid h, leaves_nat, leaves_bool, hboundary, hpost, hrewards,
    hcredits, hrecord, hindex, h.one, h.short, Bool.and_true]

theorem leaves_incompleteMarker {m : IncompleteMarker} (hindex : q m.openDecisionIndex = true) :
    (Hashed.preimage m).allLeaves p q = true := by
  have hboundary := leaves_option (x := m.boundaryHash) (fun t _ => leaves_hash h t) nofun
  have hrecord : ((Codec.literalText "incomplete").dump ()).allLeaves p q = true :=
    h.short "incomplete" (by decide)
  simp (disch := decide) only [Hashed.preimage, HashedModel.before, HashedModel.after,
    HashedModel.repr, Fields.dump_append, Fields.dump_one, Fields.dump_field, Fields.dump_constant,
    Fields.dump_schemaVersion, Json.allLeaves, Json.allLeavesEntries_append, Json.allLeavesEntries,
    leaves_uuid h, leaves_reason h, leaves_nat, hboundary, hrecord, hindex, h.one, h.short,
    Bool.and_true]

omit [Runtime] in
/-- A model passes the test when its preimage does. -/
theorem leaves_hashed {C : Type} [m : HashedModel C] {x : Hashed C} (hkey : m.hashField.length ≤ 128)
    (hpreimage : (Hashed.preimage x.content).allLeaves p q = true) :
    (Hashed.codec.dump x).allLeaves p q = true := by
  rw [Hashed.preimage, Json.allLeaves, Fields.dump_append, Json.allLeavesEntries_append,
    Bool.and_eq_true] at hpreimage
  rw [Hashed.codec_dump, Json.allLeaves, Json.allLeavesEntries_append, Json.allLeavesEntries,
    hpreimage.1, hpreimage.2, h.short _ hkey, leaves_hash h]
  rfl

theorem leaves_manifest {m : TrajectoryManifestV1} (hlength : q m.trajectoryByteLength = true)
    (hcount : q m.recordCount = true) :
    (TrajectoryManifestV1.codec.dump m).allLeaves p q = true := by
  have hlist (l : List ImplementationRefV1) :
      (ImplementationRefV1.codec.list.dump l).allLeaves p q = true :=
    leaves_list fun r _ => leaves_implementation h r
  have hstatus : (EpisodeStatus.codec.dump m.episodeStatus).allLeaves p q = true := by
    cases m.episodeStatus <;> exact h.short _ (by decide)
  show Json.allLeavesEntries p q (Fields.dump _ _) = true
  simp (disch := decide) only [Fields.dump_one, Fields.dump_field, Fields.dump_schemaVersion,
    Json.allLeaves, Json.allLeavesEntries_append, Json.allLeavesEntries, leaves_hash h,
    leaves_identifier h, leaves_uuid h, leaves_nat, hlist, hstatus, hlength, hcount, h.one, h.short,
    Bool.and_true]

end Models

/-! ### Exports -/

section Exports

variable [Runtime]

omit [Runtime] in
/-- A content whose leaves pass has a correct hash when sealed. -/
theorem hashOk_sealed_of_leaves {C : Type} [HashedModel C] {c : C}
    (h : (Hashed.preimage c).allLeaves Json.isScalar Json.isPrintable = true) :
    (Hashed.sealed c).HashOk :=
  Hashed.hashOk_sealed (by rw [Json.encodable_eq_allLeaves]; exact h)

omit [Runtime] in
theorem encodable_of_hashOk {C : Type} [m : HashedModel C] {x : Hashed C}
    (hkey : m.hashField.length ≤ 128) (h : x.HashOk) : (Hashed.codec.dump x).encodable = true := by
  rw [Hashed.HashOk, canonicalHash] at h
  obtain ⟨b, hb, -⟩ := Except.bind_eq_ok.mp h
  have hpreimage := (Json.canonicalJson_eq_ok.mp hb).1
  rw [Json.encodable_eq_allLeaves] at hpreimage ⊢
  exact leaves_hashed leafTest_encodable hkey hpreimage

theorem encodable_record {record : TrajectoryRecord} (h : record.HashesOk) :
    (TrajectoryRecord.codec.dump record).encodable = true := by
  cases record with
  | transition t => exact encodable_of_hashOk (by simp only [HashedModel.hashField]; decide) h.self
  | boundary b => exact encodable_of_hashOk (by simp only [HashedModel.hashField]; decide) h.self
  | incomplete m => exact encodable_of_hashOk (by simp only [HashedModel.hashField]; decide) h

/-- Every episode has a hash. -/
theorem exists_episodeHash (e : MarlEpisodeV1) : ∃ hash, episodeHash e = .ok hash := by
  have h := leafTest_encodable
  have hoption (x : Option Hash) : (hashOrNull x).allLeaves Json.isScalar Json.isPrintable = true :=
    leaves_option (fun t _ => leaves_hash h t) nofun
  have hlist := leaves_list (l := e.transitions.map (·.hash)) fun t _ => leaves_hash h t
  have hstatus : (EpisodeStatus.codec.dump e.status).allLeaves Json.isScalar Json.isPrintable
      = true := by
    cases e.status <;> exact h.short _ (by decide)
  rw [episodeHash, canonicalHash]
  refine ⟨_, Except.bind_eq_ok.mpr ⟨_, Json.canonicalJson_of_encodable ?_, rfl⟩⟩
  rw [Json.encodable_eq_allLeaves]
  simp (disch := decide) only [Json.allLeaves, Json.allLeavesEntries, leaves_hash h,
    leaves_identifier h, leaves_uuid h, hoption, hlist, hstatus, h.one, h.short, Bool.and_true]

/-- The trajectory file of an episode. -/
def MarlEpisodeV1.trajectory (e : MarlEpisodeV1) : Bytes :=
  (e.records.map TrajectoryRecord.codec.dump).flatMap lineOf

omit [Runtime] in
theorem checkKey_of_isShort {limits : BundleLimits} {d : ℕ} {s : PyStr}
    (hstring : 128 ≤ limits.maxStringLength) (hdepth : (d : ℤ) ≤ limits.maxJsonDepth)
    (hs : Json.isShort s = true) : checkKey limits d s = .ok () := by
  have hlength : s.length ≤ 128 := of_decide_eq_true hs
  rw [checkKey, if_neg (not_lt.mpr hdepth), if_neg (not_lt.mpr (by omega))]

omit [Runtime] in
mutual
/-- A value with short strings is within limits that allow its depth and its weight. -/
theorem depthAndSize_of_isShort {limits : BundleLimits} {q : ℤ → Bool}
    (hstring : 128 ≤ limits.maxStringLength) : ∀ (j : Json) (d : ℕ),
    j.allLeaves Json.isShort q = true → ((d + j.depth : ℕ) : ℤ) ≤ limits.maxJsonDepth →
      (j.weight : ℤ) ≤ limits.maxArrayItems → depthAndSize limits d j = .ok ()
  | .null, d, _, hdepth, _ | .bool _, d, _, hdepth, _ | .int _, d, _, hdepth, _
  | .float _ _, d, _, hdepth, _ => if_neg (not_lt.mpr hdepth)
  | .str s, d, hs, hdepth, _ => checkKey_of_isShort hstring hdepth hs
  | .arr items, d, hitems, hdepth, hweight => by
    have hlength := Json.length_le_weightItems items
    rw [Json.depth] at hdepth
    rw [Json.weight] at hweight
    rw [depthAndSize, if_neg (by omega), if_neg (by omega)]
    exact depthAndSizeItems_of_isShort hstring items (d + 1) hitems (by omega) (by omega)
  | .obj entries, d, hentries, hdepth, hweight => by
    have hlength := Json.length_le_weightEntries entries
    rw [Json.depth] at hdepth
    rw [Json.weight] at hweight
    rw [depthAndSize, if_neg (by omega), if_neg (by omega)]
    exact depthAndSizeEntries_of_isShort hstring entries (d + 1) hentries (by omega) (by omega)
theorem depthAndSizeItems_of_isShort {limits : BundleLimits} {q : ℤ → Bool}
    (hstring : 128 ≤ limits.maxStringLength) : ∀ (items : List Json) (d : ℕ),
    Json.allLeavesItems Json.isShort q items = true →
      ((d + Json.depthItems items : ℕ) : ℤ) ≤ limits.maxJsonDepth →
        (Json.weightItems items : ℤ) ≤ limits.maxArrayItems →
          depthAndSizeItems limits d items = .ok ()
  | [], _, _, _, _ => rfl
  | j :: items, d, h, hdepth, hweight => by
    rw [Json.allLeavesItems, Bool.and_eq_true] at h
    rw [Json.depthItems] at hdepth
    rw [Json.weightItems] at hweight
    rw [depthAndSizeItems, depthAndSize_of_isShort hstring j d h.1 (by omega) (by omega),
      Except.ok_bind, depthAndSizeItems_of_isShort hstring items d h.2 (by omega) (by omega)]
theorem depthAndSizeEntries_of_isShort {limits : BundleLimits} {q : ℤ → Bool}
    (hstring : 128 ≤ limits.maxStringLength) : ∀ (entries : List (PyStr × Json)) (d : ℕ),
    Json.allLeavesEntries Json.isShort q entries = true →
      ((d + Json.depthEntries entries : ℕ) : ℤ) ≤ limits.maxJsonDepth →
        (Json.weightEntries entries : ℤ) ≤ limits.maxArrayItems →
          depthAndSizeEntries limits d entries = .ok ()
  | [], _, _, _, _ => rfl
  | (k, v) :: entries, d, h, hdepth, hweight => by
    rw [Json.allLeavesEntries, Bool.and_eq_true, Bool.and_eq_true] at h
    rw [Json.depthEntries] at hdepth
    rw [Json.weightEntries] at hweight
    rw [depthAndSizeEntries, checkKey_of_isShort hstring (by omega) h.1.1, Except.ok_bind,
      depthAndSize_of_isShort hstring v d h.1.2 (by omega) (by omega), Except.ok_bind,
      depthAndSizeEntries_of_isShort hstring entries d h.2 (by omega) (by omega)]
end

/-- A value with short strings fits the default limits when it is flat and light enough. -/
theorem fits_of_isShort {j : Json} {q : ℤ → Bool} (hleaves : j.allLeaves Json.isShort q = true)
    (hdepth : j.depth ≤ min 64 Runtime.recursionLimit) (hweight : j.weight ≤ 100000) :
    Fits {} j := by
  obtain ⟨hnested, hlimit⟩ := le_min_iff.mp hdepth
  refine ⟨depthAndSize_of_isShort (by decide) j 0 hleaves ?_ (Int.ofNat_le.mpr hweight), hlimit⟩
  rw [Nat.zero_add]
  exact Int.ofNat_le.mpr hnested

/-! ### Light bundles -/

/-- A small value: short strings, little nesting, few parts. -/
structure Light (j : Json) : Prop where
  leaves : j.allLeaves Json.isShort (fun _ => true) = true
  depth : j.depth ≤ min 64 Runtime.recursionLimit
  weight : j.weight ≤ 1000

theorem Light.fits {j : Json} (h : Light j) : Fits {} j :=
  fits_of_isShort h.leaves h.depth (h.weight.trans (by decide))

omit [Runtime] in
theorem length_lineOf_le {j : Json} {q : ℤ → Bool} (h : j.allLeaves Json.isShort q = true) :
    (lineOf j).length ≤ 4000 * j.weight + 1 := by
  rw [lineOf, List.length_append, List.length_singleton]
  exact Nat.add_le_add_right (Json.length_canonicalJson_le h) 1

/-- At most ten light records take at most 40 MB. -/
theorem length_trajectory_le {e : MarlEpisodeV1} (hcount : e.records.length ≤ 10)
    (hlight : ∀ record ∈ e.records, Light (TrajectoryRecord.codec.dump record)) :
    e.trajectory.length ≤ 40000010 := by
  have hsum := List.sum_le_card_nsmul
    ((e.records.map TrajectoryRecord.codec.dump).map fun j => (lineOf j).length) 4000001 <| by
      intro n hn
      obtain ⟨j, hj, rfl⟩ := List.mem_map.mp hn
      obtain ⟨record, hrecord, rfl⟩ := List.mem_map.mp hj
      have hlength := length_lineOf_le (hlight record hrecord).leaves
      have hweight := (hlight record hrecord).weight
      omega
  rw [List.length_map, List.length_map, smul_eq_mul] at hsum
  rw [MarlEpisodeV1.trajectory, List.length_flatMap]
  omega

omit [Runtime] in
/-- A list of at most one implementation. -/
theorem weight_implementations_le {l : List ImplementationRefV1} (h : l.length ≤ 1) :
    (ImplementationRefV1.codec.list.dump l).weight ≤ 6
      ∧ (ImplementationRefV1.codec.list.dump l).depth ≤ 2 := by
  match l, h with
  | [], _ => exact ⟨by decide, by decide⟩
  | [r], _ => exact ⟨Nat.le_refl 6, Nat.le_refl 2⟩

/-- A manifest with at most one implementation of a kind and numbers of at most eight digits. -/
theorem weight_manifest_le {m : TrajectoryManifestV1} (hrefs : ∀ of, (m.refs of).length ≤ 1)
    (hlength : m.trajectoryByteLength < 10 ^ 8) (hcount : m.recordCount < 10 ^ 8) :
    (TrajectoryManifestV1.codec.dump m).weight ≤ 65
      ∧ (TrajectoryManifestV1.codec.dump m).depth ≤ 3 := by
  have hdigits {n : ℕ} (hn : n < 10 ^ 8) : (Json.intText n).length ≤ 8 :=
    (Nat.length_toDigits_le_iff (by decide) (by decide)).mpr hn
  have hobservation := weight_implementations_le (hrefs .observation)
  have hreward := weight_implementations_le (hrefs .reward)
  have hcredit := weight_implementations_le (hrefs .credit)
  have hcoordinator := weight_implementations_le (hrefs .coordinator)
  have hlength := hdigits hlength
  have hcount := hdigits hcount
  have hversion : (Json.intText 1).length = 1 := by decide
  have hhash (t : Hash) : ((Text.codec isHash).dump t).weight = 1
      ∧ ((Text.codec isHash).dump t).depth = 0 := ⟨rfl, rfl⟩
  have hidentifier : ((Text.codec isIdentifier).dump m.environmentVersion).weight = 1
      ∧ ((Text.codec isIdentifier).dump m.environmentVersion).depth = 0 := ⟨rfl, rfl⟩
  have huuid : (uuidCodec.dump m.episodeId).weight = 1 ∧ (uuidCodec.dump m.episodeId).depth = 0 :=
    ⟨rfl, rfl⟩
  have hstatus : (EpisodeStatus.codec.dump m.episodeStatus).weight = 1
      ∧ (EpisodeStatus.codec.dump m.episodeStatus).depth = 0 := by
    cases m.episodeStatus <;> exact ⟨rfl, rfl⟩
  have hnat (n : ℕ) : (Codec.nat.dump n).weight = (Json.intText n).length + 1
      ∧ (Codec.nat.dump n).depth = 0 := ⟨rfl, rfl⟩
  simp only [TrajectoryManifestV1.refs] at hobservation hreward hcredit hcoordinator
  show Json.weight (.obj (Fields.dump _ _)) ≤ 65 ∧ Json.depth (.obj (Fields.dump _ _)) ≤ 3
  simp only [Fields.dump_one, Fields.dump_field, Fields.dump_schemaVersion, List.cons_append,
    List.nil_append, Json.weight, Json.weightEntries, Json.depth, Json.depthEntries, hhash, huuid,
    hidentifier, hstatus, hnat, hversion]
  omega

omit [Runtime] in
theorem isPrintable_small {n : ℕ} (h : n < 10 ^ 8) : Json.isPrintable n = true :=
  Json.isPrintable_of_lt (h.trans_le (Nat.pow_le_pow_right (by decide) (by decide)))

/-- A bundle of at most ten light records is within the default limits. -/
theorem within_of_light {manifest : TrajectoryManifestV1} {e : MarlEpisodeV1}
    (hdescribes : Describes manifest e e.trajectory) (hrefs : ∀ of, (manifest.refs of).length ≤ 1)
    (hcount : e.records.length ≤ 10)
    (hlight : ∀ record ∈ e.records, Light (TrajectoryRecord.codec.dump record))
    (hlimit : 3 ≤ Runtime.recursionLimit) :
    Within {} manifest e (lineOf (TrajectoryManifestV1.codec.dump manifest)) e.trajectory := by
  have htrajectory := length_trajectory_le hcount hlight
  have hleaves : (TrajectoryManifestV1.codec.dump manifest).allLeaves Json.isShort
      (fun _ => true) = true := leaves_manifest leafTest_isShort rfl rfl
  obtain ⟨hweight, hdepth⟩ := weight_manifest_le hrefs
    (by rw [hdescribes.byteLength]; omega) (by rw [hdescribes.recordCount]; omega)
  have hmanifest := length_lineOf_le hleaves
  exact
    { manifestBytes := by
        show ((lineOf _).length : ℤ) ≤ 256 * 1024
        omega
      trajectoryBytes := by
        show (e.trajectory.length : ℤ) ≤ 64 * 1024 * 1024
        omega
      records := by
        show (e.records.length : ℤ) ≤ 100000
        omega
      manifest := fits_of_isShort hleaves (by omega) (by omega)
      lines := fun record hrecord => (hlight record hrecord).fits }

end Exports

end Agora.Marl
