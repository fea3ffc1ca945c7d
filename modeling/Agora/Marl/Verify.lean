import Agora.Marl.Episode

namespace Agora.Marl

/-!
# Hermetic verification

`verifyBundle` follows the source stage by stage.  A stage may return a verification result early
or let an exception through, so it is a computation in `Verify`.  `authenticate` is everything up
to the episode hash, after which the bundle counts as authentic; `verifyBundle` goes on to replay
the transitions.
-/

/-! ### Results -/

inductive ReplayOutcome where
  | verified
  | incomplete
  | failed
deriving DecidableEq, Repr

inductive FailureCode where
  | bundleEntrySet
  | resourceLimitExceeded
  | invalidUtf8
  | invalidJson
  | unsupportedSchemaVersion
  | schemaViolation
  | noncanonicalEncoding
  | manifestMismatch
  | orderViolation
  | hashMismatch
  | referenceMismatch
  | unknownImplementation
  | replayMismatch
  | episodeIncomplete
deriving DecidableEq, Repr

inductive VerificationStage where
  | bundle
  | resource
  | decode
  | parse
  | schema
  | canonical
  | manifest
  | order
  | hash
  | reference
  | implementation
  | replay
  | completeness
deriving DecidableEq, Repr

inductive BundleFile where
  | bundle
  | manifest
  | trajectory
deriving DecidableEq, Repr

structure ReplayFailureV1 where
  code : FailureCode
  stage : VerificationStage
  file : BundleFile
  line : Option ℕ := none
  decisionIndex : Option ℕ := none
  jsonPointer : Option String := none
  detail : String
  expectedHash : Option Hash := none
  actualHash : Option Hash := none

structure ReplayVerificationV1 where
  outcome : ReplayOutcome
  integrityValid : Bool
  replayVerified : Bool
  episodeId : Option UUID
  checkedRecordCount : ℕ
  expectedTrajectoryHash : Option Hash := none
  actualTrajectoryHash : Option Hash := none
  expectedEpisodeHash : Option Hash := none
  actualEpisodeHash : Option Hash := none
  firstFailure : Option ReplayFailureV1 := none

/-- The keyword arguments of `_failure`. -/
structure FailureDetails where
  episodeId : Option UUID := none
  checked : ℕ := 0
  line : Option ℕ := none
  decisionIndex : Option ℕ := none
  expectedTrajectory : Option Hash := none
  actualTrajectory : Option Hash := none
  expectedEpisode : Option Hash := none
  actualEpisode : Option Hash := none
  integrityValid : Bool := false
  outcome : ReplayOutcome := .failed

/-- `_failure`. -/
def failure (code : FailureCode) (stage : VerificationStage) (file : BundleFile) (detail : String)
    (d : FailureDetails := {}) : ReplayVerificationV1 where
  outcome := d.outcome
  integrityValid := d.integrityValid
  replayVerified := false
  episodeId := d.episodeId
  checkedRecordCount := d.checked
  expectedTrajectoryHash := d.expectedTrajectory
  actualTrajectoryHash := d.actualTrajectory
  expectedEpisodeHash := d.expectedEpisode
  actualEpisodeHash := d.actualEpisode
  firstFailure := some
    { code, stage, file, line := d.line, decisionIndex := d.decisionIndex, detail
      expectedHash := if code = .hashMismatch then d.expectedEpisode else none
      actualHash := if code = .hashMismatch then d.actualEpisode else none }

/-- How a stage ends a verification. -/
inductive Halt where
  | returned (result : ReplayVerificationV1)
  | raised (e : PyException)

/-- A stage of the verification. -/
abbrev Verify := Except Halt

/-- Outside every `try`, an exception goes through. -/
def ofPy {α : Type} : Py α → Verify α
  | .ok a => .ok a
  | .error e => .error (.raised e)

/-- `try: x` with `except` clauses: an exception that one catches returns its result. -/
def catching {α : Type} (handler : PyException → Option ReplayVerificationV1) : Py α → Verify α
  | .ok a => .ok a
  | .error e =>
    match handler e with
    | some result => .error (.returned result)
    | none => .error (.raised e)

/-- `if condition: return result`. -/
def returnIf (condition : Bool) (result : ReplayVerificationV1) : Verify Unit :=
  if condition then .error (.returned result) else .ok ()

/-- An `except ValueError` clause; validation and decoding errors are subclasses. -/
def onValueError (result : PyException → ReplayVerificationV1) (e : PyException) :
    Option ReplayVerificationV1 :=
  if e.cls = .valueError then some (result e) else none

/-! ### Limits and the registry -/

structure BundleLimits where
  maxManifestBytes : ℤ := 256 * 1024
  maxTrajectoryBytes : ℤ := 64 * 1024 * 1024
  maxRecords : ℤ := 100000
  maxJsonDepth : ℤ := 64
  maxStringLength : ℤ := 1048576
  maxArrayItems : ℤ := 100000

/-- A registered function enters the replay through one test, `function(snapshot) != value`, and
    calling or comparing may raise. -/
abbrev FeatureImplementation := SourceSnapshotV1 → FeatureValue → Py Bool

/-- `function(pre, post, direction) != reward_value`. -/
abbrev RewardImplementation :=
  Option RationalV1 → Option RationalV1 → RewardDirection → RationalV1 → Py Bool

variable [Runtime]

/-- `coordinator(boundary) != decision`. -/
abbrev CoordinatorImplementation := DecisionBoundaryV1 → CoordinatorDecisionV1 → Py Bool

/-- Caller-provided local replay implementations. -/
structure ImplementationRegistry where
  feature : ImplementationRefV1 → Option FeatureImplementation
  reward : ImplementationRefV1 → Option RewardImplementation
  coordinator : ImplementationRefV1 → Option CoordinatorImplementation
  hasCredit : ImplementationRefV1 → Bool

/-! ### Parsing -/

def overflow (message : String) : Py Unit := .error (.overflowError message)

omit [Runtime] in
/-- The depth and string checks of `_depth_and_size` on a key. -/
def checkKey (limits : BundleLimits) (depth : ℕ) (k : PyStr) : Py Unit :=
  if limits.maxJsonDepth < depth then overflow "JSON nesting exceeds limit"
  else if limits.maxStringLength < k.length then overflow "JSON string exceeds limit"
  else .ok ()

mutual
/-- `_depth_and_size`. -/
def depthAndSize (limits : BundleLimits) (depth : ℕ) : Json → Py Unit
  | .str s => checkKey limits depth s
  | .arr items =>
    if limits.maxJsonDepth < depth then overflow "JSON nesting exceeds limit"
    else if limits.maxArrayItems < items.length then overflow "JSON array exceeds limit"
    else depthAndSizeItems limits (depth + 1) items
  | .obj entries =>
    if limits.maxJsonDepth < depth then overflow "JSON nesting exceeds limit"
    else if limits.maxArrayItems < entries.length then overflow "JSON object exceeds limit"
    else depthAndSizeEntries limits (depth + 1) entries
  | _ => if limits.maxJsonDepth < depth then overflow "JSON nesting exceeds limit" else .ok ()
def depthAndSizeItems (limits : BundleLimits) (depth : ℕ) : List Json → Py Unit
  | [] => .ok ()
  | j :: items => do
    depthAndSize limits depth j
    depthAndSizeItems limits depth items
def depthAndSizeEntries (limits : BundleLimits) (depth : ℕ) : List (PyStr × Json) → Py Unit
  | [] => .ok ()
  | (k, v) :: entries => do
    checkKey limits depth k
    depthAndSize limits depth v
    depthAndSizeEntries limits depth entries
end

/-- The `except` clauses of `_parse_file`. -/
def onParseError (file : BundleFile) (e : PyException) : Option ReplayVerificationV1 :=
  if e.cls = .overflowError then
    some (failure .resourceLimitExceeded .resource file e.message)
  else if e.cls = .valueError then some (failure .invalidJson .parse file "invalid JSON")
  else none

/-- `_parse_file`; its callers only use the value. -/
def parseFile (data : Bytes) (file : BundleFile) (limits : BundleLimits) : Verify Json :=
  match decodeUtf8 data with
  | none => .error (.returned (failure .invalidUtf8 .decode file "invalid UTF-8"))
  | some text => do
    let hasBom := text.head? = some '\uFEFF'
    let parseText := if hasBom then text.tail else text
    let value ← catching (onParseError file) do
      let value ← Json.loads Runtime.recursionLimit parseText
      depthAndSize limits 0 value
      pure value
    returnIf hasBom (failure .noncanonicalEncoding .canonical file "UTF-8 BOM is forbidden")
    pure value

/-- `parsed.model_copy(...)` with the line of the failure. -/
def ReplayVerificationV1.withLine (result : ReplayVerificationV1) (line : ℕ) :
    ReplayVerificationV1 :=
  { result with firstFailure := result.firstFailure.map fun f => { f with line := some line } }

def parseLine (limits : BundleLimits) (line : ℕ) (raw : Bytes) : Verify Json :=
  match parseFile raw .trajectory limits with
  | .ok value => .ok value
  | .error (.returned result) => .error (.returned (result.withLine line))
  | .error (.raised e) => .error (.raised e)

/-- Parse the lines of the trajectory. -/
def parseLines (trajectory : Bytes) (limits : BundleLimits) : Verify (List Json) := do
  let lines := splitLines trajectory
  returnIf (limits.maxRecords < lines.length)
    (failure .resourceLimitExceeded .resource .trajectory "record count exceeds configured limit")
  lines.zipIdx.mapM fun (raw, i) => parseLine limits (i + 1) raw

/-! ### Schemas -/

/-- The literal rounds to the double `1.0`. -/
def floatIsOne (mantissa exponent : ℤ) : Bool :=
  let q := (mantissa : ℚ) * (10 : ℚ) ^ exponent
  1 - 1 / 2 ^ 54 ≤ q ∧ q ≤ 1 + 1 / 2 ^ 53

/-- `value == 1`. -/
def equalsOne : Json → Bool
  | .int n => n = 1
  | .bool b => b
  | .float m e => floatIsOne m e
  | _ => false

/-- `value.get(key)` of an object; `None` stands for `null` as well. -/
def getKey (key : String) : Json → Json
  | .obj entries => (entries.lookup (PyStr.ofString key)).getD .null
  | _ => .null

/-- `version is not None and version != SCHEMA_VERSION`. -/
def versionUnsupported (value : Json) : Bool :=
  match getKey "schema_version" value with
  | .null => false
  | version => !equalsOne version

def checkVersions (manifestValue : Json) (raws : List Json) : Verify Unit := do
  returnIf (versionUnsupported manifestValue)
    (failure .unsupportedSchemaVersion .schema .manifest "unsupported schema version")
  forM raws.zipIdx fun (raw, i) =>
    returnIf (versionUnsupported raw)
      (failure .unsupportedSchemaVersion .schema .trajectory "unsupported schema version"
        { line := some (i + 1) })

/-- `Model.model_validate_json(data)`: parsing and validation errors are both a
    `ValidationError`. -/
def modelValidateJson {α : Type} (c : Codec α) (data : Bytes) : Py α :=
  match (decodeUtf8 data).map (Json.loads Runtime.recursionLimit) with
  | some (.ok value) =>
    match c.load value with
    | some a => .ok a
    | none => .error (.valueError "validation error")
  | _ => .error (.valueError "invalid JSON")

/-- `Model.model_validate_json(canonical_json(raw))`. -/
def validateRaw {α : Type} (c : Codec α) (raw : Json) : Py α := do
  let data ← raw.canonicalJson
  modelValidateJson c data

def schemaViolation (_ : PyException) : ReplayVerificationV1 :=
  failure .schemaViolation .schema .manifest "closed schema validation failed"

def loadManifest (value : Json) : Verify TrajectoryManifestV1 := do
  returnIf (!isObject value || !equalsOne (getKey "schema_version" value))
    (failure .unsupportedSchemaVersion .schema .manifest "unsupported schema version")
  catching (onValueError schemaViolation) (validateRaw TrajectoryManifestV1.codec value)

/-- `raw.get("record_type") == name`. -/
def recordTypeIs (name : String) (raw : Json) : Bool :=
  match getKey "record_type" raw with
  | .str s => s = PyStr.ofString name
  | _ => false

def validateRecord (raw : Json) : Py TrajectoryRecord :=
  if recordTypeIs "incomplete" raw then
    TrajectoryRecord.incomplete <$> validateRaw Hashed.codec raw
  else if recordTypeIs "decision_boundary" raw then
    TrajectoryRecord.boundary <$> validateRaw Hashed.codec raw
  else TrajectoryRecord.transition <$> validateRaw Hashed.codec raw

def loadRecord (raw : Json) : Verify TrajectoryRecord := do
  returnIf (!isObject raw)
    (failure .schemaViolation .schema .trajectory "record must be an object")
  catching (onValueError schemaViolation) (validateRecord raw)

/-! ### Encoding, digests and order -/

def checkManifestEncoding (manifestBytes : Bytes) (manifest : TrajectoryManifestV1) :
    Verify Unit := do
  let canonical ← ofPy (TrajectoryManifestV1.codec.dump manifest).canonicalJson
  returnIf (manifestBytes ≠ canonical ++ [10])
    (failure .noncanonicalEncoding .canonical .manifest
      "manifest is not one JCS object with final LF" { episodeId := some manifest.episodeId })

def checkTrajectoryEncoding (trajectory : Bytes) (manifest : TrajectoryManifestV1)
    (raws : List Json) : Verify Unit := do
  let noncanonical := failure .noncanonicalEncoding .canonical .trajectory
    "trajectory records must be JCS with LF" { episodeId := some manifest.episodeId }
  returnIf ((splitLines trajectory).any fun line => line.getLast? ≠ some 10) noncanonical
  let canonical ← ofPy (jsonLines raws)
  returnIf (trajectory ≠ canonical) noncanonical

def checkDigest (trajectory : Bytes) (manifest : TrajectoryManifestV1)
    (records : List TrajectoryRecord) : Verify Unit :=
  let actual := sha256Hash trajectory
  returnIf (manifest.trajectorySha256 ≠ actual
      || manifest.trajectoryByteLength ≠ trajectory.length
      || manifest.recordCount ≠ records.length)
    (failure .manifestMismatch .manifest .manifest
      "trajectory digest, length, or count differs"
      { episodeId := some manifest.episodeId, expectedTrajectory := some manifest.trajectorySha256
        actualTrajectory := some actual })

def transitionsOf (records : List TrajectoryRecord) : List TransitionV1 :=
  records.filterMap fun | .transition t => some t | _ => none

def boundariesOf (records : List TrajectoryRecord) : List DecisionBoundaryV1 :=
  records.filterMap fun | .boundary b => some b | _ => none

def markersOf (records : List TrajectoryRecord) : List IncompleteMarkerV1 :=
  records.filterMap fun | .incomplete m => some m | _ => none

/-- The last two records are a boundary and a marker. -/
def endsWithBoundary (records : List TrajectoryRecord) : Bool :=
  match records.reverse with
  | .incomplete _ :: .boundary _ :: _ => true
  | _ => false

/-- The last record is a marker. -/
def endsWithMarker (records : List TrajectoryRecord) : Bool :=
  match records.reverse with
  | .incomplete _ :: _ => true
  | _ => false

/-- With at most one boundary and one marker, comparing the last records with these two comes
    down to the kinds of the last records. -/
def orderViolated (records : List TrajectoryRecord) : Bool :=
  let transitions := transitionsOf records
  let boundaries := boundariesOf records
  let markers := markersOf records
  transitions.map (·.content.decisionIndex) ≠ List.range transitions.length
    || decide (1 < boundaries.length)
    || decide (1 < markers.length)
    || boundaries.head?.any (fun b => b.content.decisionIndex ≠ transitions.length)
    || (!boundaries.isEmpty && (markers.isEmpty || !endsWithBoundary records))
    || (!markers.isEmpty && !endsWithMarker records)

def checkOrder (manifest : TrajectoryManifestV1) (records : List TrajectoryRecord) :
    Verify Unit :=
  returnIf (orderViolated records)
    (failure .orderViolation .order .trajectory
      "decision indices must be gapless and incomplete marker last"
      { episodeId := some manifest.episodeId })

/-! ### Hashes -/

def requireHash (actual : Hash) (preimage : Json) (message : String) : Py Unit := do
  let expected ← canonicalHash preimage
  if actual ≠ expected then .error (.valueError message) else pure ()

def validateSource (source : ObservationSourceV1) : Py Unit := do
  source.content.snapshot.validateHash
  source.validateHash

/-- `_validate_child_hashes`. -/
def validateChildHashes (t : TransitionV1) : Py Unit := do
  let boundary := t.content.boundary
  let observations := [boundary.content.observation, t.content.postObservation]
  forM (observations.flatMap (·.content.sources)) validateSource
  forM observations fun o => do
    forM o.content.features Hashed.validateHash
    requireHash o.content.sourcesHash (Hashed.codec.list.dump o.content.sources)
      "sources hash mismatch"
    requireHash o.content.featuresHash (Hashed.codec.list.dump o.content.features)
      "features hash mismatch"
    o.validateHash
  forM boundary.content.proposedAction.toList Hashed.validateHash
  forM boundary.content.executedAction.toList Hashed.validateHash
  boundary.content.coordinatorDecision.validateHash
  boundary.validateHash
  forM t.content.rewards Hashed.validateHash
  forM t.content.credits Hashed.validateHash
  t.validateHash

/-- `_validate_boundary_hashes`.  It leaves `sources_hash` and `features_hash` out. -/
def validateBoundaryHashes (boundary : DecisionBoundaryV1) : Py Unit := do
  forM boundary.content.observation.content.sources validateSource
  forM boundary.content.observation.content.features Hashed.validateHash
  boundary.content.observation.validateHash
  forM boundary.content.proposedAction.toList Hashed.validateHash
  forM boundary.content.executedAction.toList Hashed.validateHash
  boundary.content.coordinatorDecision.validateHash
  boundary.validateHash

/-- `_validate_incomplete_hashes`. -/
def validateIncompleteHashes (boundary : DecisionBoundaryV1) (marker : Option IncompleteMarkerV1) :
    Py Unit := do
  validateBoundaryHashes boundary
  match marker with
  | some marker =>
    if marker.content.boundaryHash ≠ some boundary.hash then
      .error (.valueError "incomplete marker boundary reference mismatch")
    else marker.validateHash
  | none => .error (.valueError "incomplete marker boundary reference mismatch")

def hashMismatch (manifest : TrajectoryManifestV1) (actual : Hash) (index decisionIndex : ℕ)
    (e : PyException) : ReplayVerificationV1 :=
  failure .hashMismatch .hash .trajectory e.message
    { episodeId := some manifest.episodeId, checked := index, line := some (index + 1)
      decisionIndex := some decisionIndex, expectedTrajectory := some manifest.trajectorySha256
      actualTrajectory := some actual }

def checkHashes (manifest : TrajectoryManifestV1) (actual : Hash)
    (records : List TrajectoryRecord) : Verify Unit := do
  let transitions := transitionsOf records
  forM transitions.zipIdx fun (t, i) =>
    catching (onValueError (hashMismatch manifest actual i t.content.decisionIndex))
      (validateChildHashes t)
  match boundariesOf records with
  | boundary :: _ =>
    catching (onValueError (hashMismatch manifest actual transitions.length
        boundary.content.decisionIndex))
      (validateIncompleteHashes boundary (markersOf records).head?)
  | [] => pure ()

/-! ### References and the episode -/

def recordEpisodeIds (records : List TrajectoryRecord) : List UUID :=
  (transitionsOf records).map (·.content.episodeId)
    ++ (boundariesOf records).map (·.content.episodeId)
    ++ (markersOf records).map (·.content.episodeId)

def checkReferences (manifest : TrajectoryManifestV1) (records : List TrajectoryRecord) :
    Verify Unit := do
  returnIf ((recordEpisodeIds records).any fun id => id ≠ manifest.episodeId)
    (failure .referenceMismatch .reference .trajectory "record episode id differs from manifest"
      { episodeId := some manifest.episodeId })
  returnIf ((transitionsOf records).any fun t =>
      t.content.boundary.content.observation.content.environmentVersion
          ≠ manifest.environmentVersion
        || t.content.postObservation.content.environmentVersion ≠ manifest.environmentVersion)
    (failure .referenceMismatch .reference .trajectory
      "record environment version differs from manifest" { episodeId := some manifest.episodeId })

/-- The episode of the records, with the scope of its first transition. -/
def episodeOf (manifest : TrajectoryManifestV1) (first : TransitionV1)
    (records : List TrajectoryRecord) : MarlEpisodeV1 where
  episodeId := manifest.episodeId
  workspaceId := first.content.boundary.content.observation.content.workspaceId
  sessionId := first.content.boundary.content.observation.content.sessionId
  environmentVersion := manifest.environmentVersion
  codeIdentity := manifest.codeIdentity
  status := manifest.episodeStatus
  transitions := transitionsOf records
  pendingBoundary := (boundariesOf records).head?
  incompleteMarker := (markersOf records).head?

/-- `transitions[0]` raises `IndexError` when there is no transition. -/
def assemble (manifest : TrajectoryManifestV1) (records : List TrajectoryRecord) :
    Py MarlEpisodeV1 :=
  match transitionsOf records with
  | [] => .error (.lookupError "tuple index out of range")
  | first :: _ => (episodeOf manifest first records).validate

def buildEpisode (manifest : TrajectoryManifestV1) (records : List TrajectoryRecord) :
    Verify MarlEpisodeV1 :=
  catching (fun e =>
      if e.cls = .valueError ∨ e.cls = .lookupError then
        some (failure .referenceMismatch .reference .trajectory
          "episode references or lifecycle are inconsistent"
          { episodeId := some manifest.episodeId })
      else none)
    (assemble manifest records)

/-! ### Authentication -/

/-- What an authentic bundle has been read as. -/
structure Authenticated where
  manifest : TrajectoryManifestV1
  raws : List Json
  records : List TrajectoryRecord
  episode : MarlEpisodeV1
  episodeHash : Hash

def manifestFile : String := "manifest.json"
def trajectoryFile : String := "trajectory.jsonl"

/-- The entry names and the sizes of the files. -/
def checkBundle (manifestBytes trajectory : Bytes) (entryNames : List String)
    (limits : BundleLimits) : Verify Unit := do
  returnIf (entryNames ≠ [manifestFile, trajectoryFile]
      ∧ entryNames ≠ [trajectoryFile, manifestFile])
    (failure .bundleEntrySet .bundle .bundle
      "bundle must contain exactly manifest.json and trajectory.jsonl")
  returnIf (limits.maxManifestBytes < manifestBytes.length
      ∨ limits.maxTrajectoryBytes < trajectory.length)
    (failure .resourceLimitExceeded .resource
      (if limits.maxManifestBytes < manifestBytes.length then .manifest else .trajectory)
      "file exceeds configured byte limit")

/-- The stages up to the episode hash. -/
def authenticate (manifestBytes trajectory : Bytes) (entryNames : List String)
    (limits : BundleLimits) : Verify Authenticated := do
  checkBundle manifestBytes trajectory entryNames limits
  let manifestValue ← parseFile manifestBytes .manifest limits
  let raws ← parseLines trajectory limits
  checkVersions manifestValue raws
  let manifest ← loadManifest manifestValue
  let records ← raws.mapM loadRecord
  checkManifestEncoding manifestBytes manifest
  checkTrajectoryEncoding trajectory manifest raws
  checkDigest trajectory manifest records
  checkOrder manifest records
  checkHashes manifest (sha256Hash trajectory) records
  checkReferences manifest records
  let episode ← buildEpisode manifest records
  let actualEpisode ← ofPy (episodeHash episode)
  returnIf (actualEpisode ≠ manifest.episodeHash)
    (failure .hashMismatch .hash .manifest "episode hash differs"
      { episodeId := some manifest.episodeId, checked := (transitionsOf records).length
        expectedTrajectory := some manifest.trajectorySha256
        actualTrajectory := some (sha256Hash trajectory)
        expectedEpisode := some manifest.episodeHash, actualEpisode := some actualEpisode })
  pure { manifest, raws, records, episode, episodeHash := actualEpisode }

/-! ### Replay -/

/-- `if test: raise exception`. -/
def raiseIf (test : Bool) (e : PyException) : Py Unit := if test then .error e else .ok ()

def replayFeature (registry : ImplementationRegistry) (o : MarlObservationV1)
    (feature : ObservationFeatureV1) : Py Unit :=
  match registry.feature ⟨feature.content.featureId, feature.content.featureVersion⟩ with
  | none => .error (.lookupError "unknown observation implementation")
  | some function =>
    -- The snapshots of the observation are a dictionary by source hash.
    match feature.content.sourceHashes with
    | [h] =>
      match dictGet (·.hash) o.content.sources h with
      | some source => do
        let differs ← function source.content.snapshot feature.content.value
        raiseIf differs (.runtimeError "observation feature replay mismatch")
      | none => .error (.referenceError "feature source reference mismatch")
    | _ => .error (.referenceError "feature source reference mismatch")

def replayReward (registry : ImplementationRegistry) (reward : RewardComponentV1) : Py Unit :=
  match registry.reward reward.content.rewardImplementation with
  | none => .error (.lookupError "unknown reward implementation")
  | some function =>
    if reward.content.status = .observed then do
      let differs ← function reward.content.preMetricValue reward.content.postMetricValue
        reward.content.direction reward.content.rewardValue
      raiseIf differs (.runtimeError "reward replay mismatch")
    else pure ()

/-- `_replay_transition`. -/
def replayTransition (registry : ImplementationRegistry) (t : TransitionV1) : Py Unit := do
  let boundary := t.content.boundary
  forM [boundary.content.observation, t.content.postObservation] fun o =>
    forM o.content.features (replayFeature registry o)
  let decision := boundary.content.coordinatorDecision
  match registry.coordinator decision.content.coordinatorImplementation with
  | none => .error (.lookupError "unknown coordinator implementation")
  | some coordinator => do
    let differs ← coordinator boundary decision
    raiseIf differs (.runtimeError "coordinator replay mismatch")
  forM t.content.rewards (replayReward registry)
  forM t.content.credits fun credit =>
    raiseIf (!registry.hasCredit credit.content.creditImplementation)
      (.lookupError "unknown credit implementation")

/-- The keyword arguments shared by the results that follow authentication. -/
def Authenticated.details (a : Authenticated) (trajectory : Bytes) : FailureDetails where
  episodeId := some a.manifest.episodeId
  expectedTrajectory := some a.manifest.trajectorySha256
  actualTrajectory := some (sha256Hash trajectory)
  expectedEpisode := some a.manifest.episodeHash
  actualEpisode := some a.episodeHash
  integrityValid := true

/-- The `except` clauses around the replay of a transition. -/
def onReplayError (a : Authenticated) (trajectory : Bytes) (t : TransitionV1) (index : ℕ)
    (e : PyException) : Option ReplayVerificationV1 :=
  let details := { a.details trajectory with
    checked := index, line := some (index + 1), decisionIndex := some t.content.decisionIndex }
  if e.cls = .lookupError then
    some (failure .unknownImplementation .implementation .trajectory e.message details)
  else if e.cls = .referenceError ∨ e.isRuntimeError then
    some (failure .replayMismatch .replay .trajectory e.message details)
  else none

/-- Replay the transitions, then report on completeness. -/
def replay (registry : ImplementationRegistry) (trajectory : Bytes) (a : Authenticated) :
    Verify ReplayVerificationV1 := do
  forM (transitionsOf a.records).zipIdx fun (t, i) =>
    catching (onReplayError a trajectory t i) (replayTransition registry t)
  returnIf (a.episode.status = .incomplete)
    (failure .episodeIncomplete .completeness .trajectory
      "trajectory is authentic but episode is incomplete"
      { a.details trajectory with
        checked := a.records.length, line := some a.records.length, outcome := .incomplete })
  pure
    { outcome := .verified
      integrityValid := true
      replayVerified := true
      episodeId := some a.manifest.episodeId
      checkedRecordCount := a.records.length
      expectedTrajectoryHash := some a.manifest.trajectorySha256
      actualTrajectoryHash := some (sha256Hash trajectory)
      expectedEpisodeHash := some a.manifest.episodeHash
      actualEpisodeHash := some a.episodeHash }

/-- `verify_bundle`. -/
def verifyBundle (manifestBytes trajectory : Bytes) (registry : ImplementationRegistry)
    (entryNames : List String := [manifestFile, trajectoryFile]) (limits : BundleLimits := {}) :
    Py ReplayVerificationV1 :=
  match authenticate manifestBytes trajectory entryNames limits >>= replay registry trajectory with
  | .ok result => .ok result
  | .error (.returned result) => .ok result
  | .error (.raised e) => .error e

end Agora.Marl
