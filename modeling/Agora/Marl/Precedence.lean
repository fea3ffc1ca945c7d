import Agora.Lib.Precedence
import Agora.Marl.Registrations

namespace Agora.Marl

open Agora.Except (Raises)

/-!
# Which failure a verification reports

A bundle may be wrong in several ways.  `FailureCode` is ordered as documented, and `scopes` lists
what is wrong with a bundle in the order in which the verification looks: at the bundle as a whole,
at each file and line by itself, at the contents of both files, at the episode they describe and at
each check of the replay.  The first scope with faults decides, for the least of its faults
(`verifyBundle_precedence`).  So a fault that cannot be read past masks the earlier faults of other
files and lines, and in the same way a wrong reference masks the hash of the episode and a failed
replay an implementation that is missing later on (`Masks`).
-/

/-! ### The order of the codes -/

namespace FailureCode

/-- The documented precedence. -/
def closedOrder : List FailureCode :=
  [.bundleEntrySet, .resourceLimitExceeded, .invalidUtf8, .invalidJson, .unsupportedSchemaVersion,
    .schemaViolation, .noncanonicalEncoding, .manifestMismatch, .orderViolation, .hashMismatch,
    .referenceMismatch, .unknownImplementation, .replayMismatch, .episodeIncomplete]

theorem mem_closedOrder (code : FailureCode) : code ∈ closedOrder := by
  cases code <;> decide

/-- The place of a code in the order. -/
def rank (code : FailureCode) : ℕ := closedOrder.idxOf code

theorem rank_injective : Function.Injective rank :=
  fun code _ h => (List.idxOf_inj (mem_closedOrder code)).mp h

instance : LinearOrder FailureCode := LinearOrder.lift' rank rank_injective

end FailureCode

/-! ### The faults of a bundle -/

section Faults

variable [Runtime]

/-- The value of a text, a byte order mark aside. -/
def parseText (limits : BundleLimits) (text : List Char) : Py Json := do
  let value ← Json.loads Runtime.recursionLimit
    (if text.head? = some '\uFEFF' then text.tail else text)
  depthAndSize limits 0 value
  pure value

/-- The value of a file or a line, where it has one. -/
def readValue (limits : BundleLimits) (data : Bytes) : Option Json := do
  let text ← decodeUtf8 data
  (parseText limits text).toOption

def readManifest (limits : BundleLimits) (manifestBytes : Bytes) : Option TrajectoryManifestV1 := do
  let value ← readValue limits manifestBytes
  (validateRaw TrajectoryManifestV1.codec value).toOption

def readLines (limits : BundleLimits) (trajectory : Bytes) : Option (List Json) :=
  (splitLines trajectory).mapM (readValue limits)

def readRecords (limits : BundleLimits) (trajectory : Bytes) : Option (List TrajectoryRecord) := do
  let raws ← readLines limits trajectory
  (raws.mapM loadRecord).toOption

omit [Runtime] in
/-- The entry names and the sizes of the files. -/
def bundleFaults (manifestBytes trajectory : Bytes) (entryNames : List String)
    (limits : BundleLimits) : List (FailureCode × Prop) :=
  [(.bundleEntrySet, entryNames ≠ [manifestFile, trajectoryFile]
      ∧ entryNames ≠ [trajectoryFile, manifestFile]),
    (.resourceLimitExceeded, limits.maxManifestBytes < manifestBytes.length
      ∨ limits.maxTrajectoryBytes < trajectory.length)]

/-- A file or a line by itself. -/
def partFaults (limits : BundleLimits) (data : Bytes) : List (FailureCode × Prop) :=
  [(.resourceLimitExceeded, ∃ text ∈ decodeUtf8 data, ∃ e, parseText limits text = .error e
      ∧ e.cls = .overflowError),
    (.invalidUtf8, decodeUtf8 data = none),
    (.invalidJson, ∃ text ∈ decodeUtf8 data, ∃ e, parseText limits text = .error e
      ∧ e.cls = .valueError),
    (.noncanonicalEncoding, ∃ text ∈ decodeUtf8 data, text.head? = some '\uFEFF')]

/-- The contents of both files, as far as they can be read. -/
def contentFaults (limits : BundleLimits) (manifestBytes trajectory : Bytes) :
    List (FailureCode × Prop) :=
  [(.unsupportedSchemaVersion,
      (∃ value ∈ readValue limits manifestBytes, versionUnsupported value = true)
        ∨ ∃ line ∈ splitLines trajectory, ∃ value ∈ readValue limits line,
          versionUnsupported value = true),
    (.unsupportedSchemaVersion, ∃ value ∈ readValue limits manifestBytes,
      ¬ (isObject value = true ∧ equalsOne (getKey "schema_version" value) = true)),
    (.schemaViolation, ∃ value ∈ readValue limits manifestBytes,
      ¬ ∃ manifest, validateRaw TrajectoryManifestV1.codec value = .ok manifest),
    (.schemaViolation, ∃ line ∈ splitLines trajectory, ∃ value ∈ readValue limits line,
      ¬ ∃ record, isObject value = true ∧ validateRecord value = .ok record),
    (.noncanonicalEncoding, ∃ manifest ∈ readManifest limits manifestBytes,
      ¬ ∃ canonical, (TrajectoryManifestV1.codec.dump manifest).canonicalJson = .ok canonical
        ∧ manifestBytes = canonical ++ [10]),
    (.noncanonicalEncoding, ∃ raws ∈ readLines limits trajectory,
      ¬ ((∀ line ∈ splitLines trajectory, line.getLast? = some 10)
        ∧ jsonLines raws = .ok trajectory)),
    (.manifestMismatch, ∃ manifest ∈ readManifest limits manifestBytes,
      ∃ records ∈ readRecords limits trajectory,
        ¬ (manifest.trajectorySha256 = sha256Hash trajectory
          ∧ manifest.trajectoryByteLength = trajectory.length
          ∧ manifest.recordCount = records.length)),
    (.orderViolation, ∃ records ∈ readRecords limits trajectory, orderViolated records = true),
    (.hashMismatch, ∃ records ∈ readRecords limits trajectory,
      ¬ ((∀ t ∈ transitionsOf records, validateChildHashes t = .ok ())
        ∧ ∀ b ∈ (boundariesOf records).head?,
          validateIncompleteHashes b (markersOf records).head? = .ok ())),
    (.referenceMismatch, ∃ manifest ∈ readManifest limits manifestBytes,
      ∃ records ∈ readRecords limits trajectory,
        ¬ ((∀ id ∈ recordEpisodeIds records, id = manifest.episodeId)
          ∧ ∀ t ∈ transitionsOf records,
            t.content.boundary.content.observation.content.environmentVersion
                = manifest.environmentVersion
              ∧ t.content.postObservation.content.environmentVersion
                = manifest.environmentVersion)),
    (.referenceMismatch, ∃ manifest ∈ readManifest limits manifestBytes,
      ∃ records ∈ readRecords limits trajectory,
        ¬ ∃ episode, assemble manifest records = .ok episode)]

/-- The hash of the episode that the files describe. -/
def episodeFault (limits : BundleLimits) (manifestBytes trajectory : Bytes) : Set FailureCode :=
  faultIf .hashMismatch (∃ manifest ∈ readManifest limits manifestBytes,
    ∃ records ∈ readRecords limits trajectory, ∃ episode,
      assemble manifest records = .ok episode ∧ episodeHash episode ≠ .ok manifest.episodeHash)

omit [Runtime] in
/-- A check of the replay. -/
def checkFaults (check : Check) : List (FailureCode × Prop) :=
  [(.unknownImplementation, ∃ e, check.run = .error e ∧ e.cls = .lookupError),
    (.replayMismatch, ∃ e, check.run = .error e ∧ IsReplayFailure e)]

/-- The checks of the replay, where the records can be read. -/
def replayChecks (registry : ImplementationRegistry) (limits : BundleLimits) (trajectory : Bytes) :
    List Check :=
  (readRecords limits trajectory).elim [] fun records =>
    (transitionsOf records).flatMap (checks registry)

def completenessFault (limits : BundleLimits) (manifestBytes : Bytes) : Set FailureCode :=
  faultIf .episodeIncomplete
    (∃ manifest ∈ readManifest limits manifestBytes, manifest.episodeStatus = .incomplete)

/-- What is wrong with a bundle, in the order in which the verification looks. -/
def scopes (manifestBytes trajectory : Bytes) (registry : ImplementationRegistry)
    (entryNames : List String) (limits : BundleLimits) : List (Set FailureCode) :=
  faultsOf (bundleFaults manifestBytes trajectory entryNames limits)
    :: faultsOf (partFaults limits manifestBytes)
    :: faultIf .resourceLimitExceeded (limits.maxRecords < (splitLines trajectory).length)
    :: (splitLines trajectory).map (fun line => faultsOf (partFaults limits line))
    ++ faultsOf (contentFaults limits manifestBytes trajectory)
    :: episodeFault limits manifestBytes trajectory
    :: (replayChecks registry limits trajectory).map (fun check => faultsOf (checkFaults check))
    ++ [completenessFault limits manifestBytes]

/-- The bundle is wrong in the way of the code. -/
def Violates (manifestBytes trajectory : Bytes) (registry : ImplementationRegistry)
    (entryNames : List String) (limits : BundleLimits) (code : FailureCode) : Prop :=
  ∃ S ∈ scopes manifestBytes trajectory registry entryNames limits, code ∈ S

end Faults

/-! ### Stages that report -/

/-- The stage returns what the scopes decide, and passes where they have no faults. -/
def Reports {α : Type} (scopes : List (Set FailureCode)) : Verify α → Prop
  | .ok _ => ∀ S ∈ scopes, S = ∅
  | .error (.returned r) => ∃ f ∈ r.firstFailure, Decides scopes f.code
  | .error (.raised _) => True

/-- What the stage returns early has the code. -/
def Blames (code : FailureCode) (halt : Halt) : Prop :=
  ∀ r, halt = .returned r → ∃ f ∈ r.firstFailure, f.code = code

theorem blames_failure {code : FailureCode} {stage : VerificationStage} {file : BundleFile}
    {detail : String} {d : FailureDetails} :
    Blames code (.returned (failure code stage file detail d)) := by
  rintro r ⟨⟩
  exact ⟨_, rfl, rfl⟩

theorem blames_raised {code : FailureCode} {e : PyException} : Blames code (.raised e) := by
  rintro r ⟨⟩

section Stages

variable {α β : Type} {code : FailureCode} {p q : Prop} {scopes scopes' : List (Set FailureCode)}

theorem blames_returnIf {condition : Bool} {stage : VerificationStage} {file : BundleFile}
    {detail : String} {d : FailureDetails} :
    Raises (Blames code) (returnIf condition (failure code stage file detail d)) :=
  .ite (fun _ => .error blames_failure) fun _ => .ok ()

theorem blames_catching {handler : PyException → Option ReplayVerificationV1} (x : Py α)
    (h : ∀ e, ∀ r ∈ handler e, Blames code (.returned r)) :
    Raises (Blames code) (catching handler x) := by
  cases x with
  | ok a => exact .ok a
  | error e =>
    rw [catching]
    split
    case h_1 r hr => exact .error (h e r hr)
    case h_2 => exact .error blames_raised

theorem blames_onValueError {result : PyException → ReplayVerificationV1} (x : Py α)
    (h : ∀ e, Blames code (.returned (result e))) :
    Raises (Blames code) (catching (onValueError result) x) := by
  refine blames_catching x fun e r hr => ?_
  rw [onValueError] at hr
  split at hr
  · cases hr
    exact h e
  · cases hr

theorem blames_ofPy (x : Py α) : Raises (Blames code) (ofPy x) := by
  cases x with
  | ok a => exact .ok a
  | error e => exact .error blames_raised

namespace Reports

theorem raised (e : PyException) : Reports scopes (.error (.raised e) : Verify α) := trivial

/-- `return failure`. -/
theorem returned {S : Set FailureCode} (h : IsLeast S code) {stage : VerificationStage}
    {file : BundleFile} {detail : String} {d : FailureDetails} :
    Reports [S] (.error (.returned (failure code stage file detail d)) : Verify α) :=
  ⟨_, rfl, .here h⟩

/-- `if p: return failure`. -/
theorem returnIf (p : Prop) [Decidable p] {stage : VerificationStage} {file : BundleFile}
    {detail : String} {d : FailureDetails} :
    Reports [faultIf code p] (Marl.returnIf p (failure code stage file detail d)) := by
  rw [Marl.returnIf]
  by_cases hp : p
  · simp only [hp, decide_true, if_true]
    exact returned (isLeast_faultIf trivial)
  · simp only [hp, decide_false, Bool.false_eq_true, if_false]
    rintro S hS
    rw [List.mem_singleton.mp hS]
    exact faultIf_eq_empty id

/-- One scope after another. -/
theorem bind {x : Verify α} {f : α → Verify β} (hx : Reports scopes x)
    (hf : ∀ a, x = .ok a → Reports scopes' (f a)) : Reports (scopes ++ scopes') (x >>= f) := by
  match x, hx with
  | .ok a, hempty =>
    have hrest := hf a rfl
    rw [Except.ok_bind]
    match f a, hrest with
    | .ok b, hempty' => exact fun S hS => (List.mem_append.mp hS).elim (hempty S) (hempty' S)
    | .error (.returned r), ⟨failed, hfailed, hdecides⟩ =>
      exact ⟨failed, hfailed, .of_empty hempty hdecides⟩
    | .error (.raised e), _ => trivial
  | .error (.returned r), ⟨failed, hfailed, hdecides⟩ => exact ⟨failed, hfailed, hdecides.append _⟩
  | .error (.raised e), _ => trivial

theorem map {x : Verify α} (hx : Reports scopes x) (f : α → β) :
    Reports scopes (x >>= fun a => pure (f a)) := by
  match x, hx with
  | .ok a, hempty => exact hempty
  | .error (.returned r), hdecides => exact hdecides
  | .error (.raised e), _ => trivial

/-- A stage with one fault. -/
theorem of_iff {x : Verify α} (hok : (∃ a, x = .ok a) ↔ ¬ p) (hcode : Raises (Blames code) x) :
    Reports [faultIf code p] x := by
  match x, hok, hcode with
  | .ok a, hok, _ =>
    rintro S hS
    rw [List.mem_singleton.mp hS]
    exact faultIf_eq_empty (hok.mp ⟨a, rfl⟩)
  | .error (.returned r), hok, hcode =>
    obtain ⟨failed, hfailed, rfl⟩ := hcode _ rfl r rfl
    have hp : p := by
      by_contra hp
      obtain ⟨a, ha⟩ := hok.mpr hp
      cases ha
    exact ⟨failed, hfailed, .here (isLeast_faultIf hp)⟩
  | .error (.raised e), _, _ => trivial

/-- A check that passes on a condition. -/
theorem of_eq_ok {x : Verify Unit} (hok : x = .ok () ↔ p) (hcode : Raises (Blames code) x) :
    Reports [faultIf code (¬ p)] x :=
  of_iff ⟨fun ⟨(), h⟩ hp => hp (hok.mp h), fun hp => ⟨(), hok.mpr (not_not.mp hp)⟩⟩ hcode

theorem of_exists {x : Verify α} (hok : (∃ a, x = .ok a) ↔ p) (hcode : Raises (Blames code) x) :
    Reports [faultIf code (¬ p)] x :=
  of_iff (hok.trans not_not.symm) hcode

theorem congr {x : Verify α} (h : Reports [faultIf code p] x) (hpq : q ↔ p) :
    Reports [faultIf code q] x := by
  rwa [propext hpq]

/-- A sorted table whose entries are looked at one after another. -/
theorem of_table {table : List (FailureCode × Prop)} {x : Verify α}
    (h : Reports (table.map (fun entry => faultIf entry.1 entry.2) ++ scopes) x)
    (hsorted : (table.map Prod.fst).Pairwise (· ≤ ·)) : Reports (faultsOf table :: scopes) x := by
  match x, h with
  | .ok a, hempty =>
    obtain ⟨htable, hrest⟩ := List.forall_mem_append.mp hempty
    exact List.forall_mem_cons.mpr ⟨faultsOf_eq_empty_iff.mpr htable, hrest⟩
  | .error (.returned r), ⟨failed, hfailed, hdecides⟩ =>
    exact ⟨failed, hfailed, hdecides.table hsorted⟩
  | .error (.raised e), _ => trivial

/-- One fault after another. -/
theorem cons {S : Set FailureCode} {x : Verify α} {f : α → Verify β} (hx : Reports [S] x)
    (hf : ∀ a, x = .ok a → Reports scopes (f a)) : Reports (S :: scopes) (x >>= f) :=
  hx.bind hf

/-- A loop that looks at one element after another. -/
theorem mapM {f : α × ℕ → Verify β} {g : α → Set FailureCode} (h : ∀ x, Reports [g x.1] (f x))
    (l : List α) (k : ℕ) : Reports (l.map g) ((l.zipIdx k).mapM f) := by
  induction l generalizing k with
  | nil => exact fun S hS => absurd hS List.not_mem_nil
  | cons a l ih =>
    rw [List.zipIdx_cons, List.mapM_cons, List.map_cons, ← List.singleton_append]
    exact (h (a, k)).bind fun b _ => (ih (k + 1)).map fun bs => b :: bs

end Reports

end Stages

/-! ### Reading -/

section Reading

variable [Runtime] {manifestBytes trajectory : Bytes} {entryNames : List String}
  {limits : BundleLimits}

omit [Runtime] in
theorem reports_checkBundle :
    Reports [faultsOf (bundleFaults manifestBytes trajectory entryNames limits)]
      (checkBundle manifestBytes trajectory entryNames limits) := by
  apply Reports.of_table
  · exact .cons (.returnIf _) fun _ _ => .returnIf _
  show [FailureCode.bundleEntrySet, .resourceLimitExceeded].Pairwise (· ≤ ·)
  decide

/-- A text has a value, exceeds a limit, is no JSON, or nests too deeply. -/
theorem raises_parseText (text : List Char) :
    Raises (fun e => e.cls = .overflowError ∨ e.cls = .valueError ∨ e.cls = .recursionError)
      (parseText limits text) := by
  refine Raises.bind (fun e he => ?_) fun value _ => ?_
  · exact .inr (Json.raises_loads _ _ e he)
  · exact ((raises_depthAndSize limits 0 value).mono fun e he => .inl he).bind fun _ _ => .ok value

theorem parseFile_eq (data : Bytes) (file : BundleFile) :
    parseFile data file limits = (match decodeUtf8 data with
      | none => .error (.returned (failure .invalidUtf8 .decode file "invalid UTF-8"))
      | some text => do
        let value ← catching (onParseError file) (parseText limits text)
        returnIf (text.head? = some '\uFEFF')
          (failure .noncanonicalEncoding .canonical file "UTF-8 BOM is forbidden")
        pure value) := rfl

theorem readValue_of_parseFile {data : Bytes} {file : BundleFile} {value : Json}
    (h : parseFile data file limits = .ok value) : readValue limits data = some value := by
  obtain ⟨text, hdecode, hbom, hloads, hdepth⟩ := parseFile_eq_ok.mp h
  have hparse : parseText limits text = .ok value := by
    rw [parseText, if_neg hbom, hloads, Except.ok_bind, hdepth]
    rfl
  rw [readValue, hdecode]
  show (parseText limits text).toOption = some value
  rw [hparse]
  rfl

/-- What is wrong with a text, apart from its encoding. -/
theorem mem_partFaults {data : Bytes} {text : List Char} (hdecode : decodeUtf8 data = some text)
    (limits : BundleLimits) (code : FailureCode) : code ∈ faultsOf (partFaults limits data) ↔
      code = .resourceLimitExceeded
          ∧ (∃ e, parseText limits text = .error e ∧ e.cls = .overflowError)
        ∨ code = .invalidJson ∧ (∃ e, parseText limits text = .error e ∧ e.cls = .valueError)
        ∨ code = .noncanonicalEncoding ∧ text.head? = some '\uFEFF' := by
  simp [partFaults, hdecode]

theorem reports_parseFile (data : Bytes) (file : BundleFile) :
    Reports [faultsOf (partFaults limits data)] (parseFile data file limits) := by
  rw [parseFile_eq]
  cases hdecode : decodeUtf8 data with
  | none =>
    refine .returned ⟨by simp [partFaults, hdecode], fun code hcode => ?_⟩
    have hutf8 : code = .invalidUtf8 := by simpa [partFaults, hdecode] using hcode
    exact hutf8.ge
  | some text =>
    have hfaults := mem_partFaults hdecode limits
    cases hparse : parseText limits text with
    | ok value =>
      simp only [hparse, reduceCtorEq, false_and, exists_false, and_false, false_or] at hfaults
      have hset : faultsOf (partFaults limits data)
          = faultIf .noncanonicalEncoding (text.head? = some '\uFEFF') := Set.ext hfaults
      simp only [hset, hparse]
      exact (Reports.returnIf (text.head? = some '\uFEFF')).map fun _ => value
    | error e =>
      simp only [hparse, Except.error.injEq, exists_eq_left'] at hfaults
      simp only [hparse]
      rcases raises_parseText text e hparse with hlimit | hjson | hstack
      · have hcaught : onParseError file e
            = some (failure .resourceLimitExceeded .resource file e.message) := if_pos hlimit
        rw [catching, hcaught]
        refine .returned ⟨(hfaults _).mpr (.inl ⟨rfl, hlimit⟩), fun code hcode => ?_⟩
        rcases (hfaults code).mp hcode with ⟨rfl, -⟩ | ⟨rfl, -⟩ | ⟨rfl, -⟩ <;> decide
      · have hcaught : onParseError file e
            = some (failure .invalidJson .parse file "invalid JSON") := by
          rw [onParseError, hjson]
          rfl
        rw [catching, hcaught]
        refine .returned ⟨(hfaults _).mpr (.inr (.inl ⟨rfl, hjson⟩)), fun code hcode => ?_⟩
        rcases (hfaults code).mp hcode with ⟨-, hlimit⟩ | ⟨rfl, -⟩ | ⟨rfl, -⟩
        · rw [hjson] at hlimit
          cases hlimit
        · exact le_rfl
        · decide
      · have hthrough : onParseError file e = none := by
          rw [onParseError, hstack]
          rfl
        rw [catching, hthrough]
        exact .raised e

theorem reports_parseLine (line : ℕ) (raw : Bytes) :
    Reports [faultsOf (partFaults limits raw)] (parseLine limits line raw) := by
  have hreports : Reports [faultsOf (partFaults limits raw)] (parseFile raw .trajectory limits) :=
    reports_parseFile raw .trajectory
  rw [parseLine]
  split
  case h_1 value hvalue => rwa [hvalue] at hreports
  case h_2 result hresult =>
    rw [hresult] at hreports
    obtain ⟨f, hf, hdecides⟩ := hreports
    refine ⟨{ f with line := some line }, ?_, hdecides⟩
    rw [ReplayVerificationV1.withLine, Option.mem_def.mp hf]
    rfl
  case h_3 e _ => exact .raised e

theorem reports_parseLines :
    Reports (faultIf .resourceLimitExceeded (limits.maxRecords < (splitLines trajectory).length)
        :: (splitLines trajectory).map fun line => faultsOf (partFaults limits line))
      (parseLines trajectory limits) :=
  (Reports.returnIf _).bind fun _ _ => .mapM (fun x => reports_parseLine _ x.1) _ 0

/-- The values of the lines. -/
theorem forall₂_readValue {raws : List Json} (h : parseLines trajectory limits = .ok raws) :
    List.Forall₂ (fun line raw => readValue limits line = some raw) (splitLines trajectory) raws :=
  (parseLines_eq_ok.mp h).2.imp fun _ _ => readValue_of_parseFile

theorem readLines_eq {raws : List Json} (h : parseLines trajectory limits = .ok raws) :
    readLines limits trajectory = some raws := by
  have hvalues := forall₂_readValue h
  rw [readLines]
  generalize splitLines trajectory = lines at hvalues ⊢
  clear h
  induction hvalues with
  | nil => rfl
  | cons hline _ ih => rw [List.mapM_cons, hline, ih]; rfl

theorem readManifest_eq {value : Json} {manifest : TrajectoryManifestV1}
    (hvalue : parseFile manifestBytes .manifest limits = .ok value)
    (h : loadManifest value = .ok manifest) :
    readManifest limits manifestBytes = some manifest := by
  rw [readManifest, readValue_of_parseFile hvalue]
  show (validateRaw TrajectoryManifestV1.codec value).toOption = some manifest
  rw [(loadManifest_eq_ok.mp h).2]
  rfl

theorem readRecords_eq {raws : List Json} {records : List TrajectoryRecord}
    (hraws : parseLines trajectory limits = .ok raws) (h : raws.mapM loadRecord = .ok records) :
    readRecords limits trajectory = some records := by
  rw [readRecords, readLines_eq hraws]
  show (raws.mapM loadRecord).toOption = some records
  rw [h]
  rfl

/-- A fault of some line is one of some value. -/
theorem exists_line_iff {raws : List Json} (h : parseLines trajectory limits = .ok raws)
    {P : Json → Prop} :
    (∃ line ∈ splitLines trajectory, ∃ value ∈ readValue limits line, P value)
      ↔ ∃ raw ∈ raws, P raw := by
  have hvalues := forall₂_readValue h
  generalize splitLines trajectory = lines at hvalues ⊢
  clear h
  induction hvalues with
  | nil => simp
  | cons hline _ ih =>
    rw [List.exists_mem_cons_iff, List.exists_mem_cons_iff, hline]
    refine or_congr ?_ ih
    simp

end Reading

/-! ### The contents -/

section Contents

variable [Runtime] {manifestBytes trajectory : Bytes} {limits : BundleLimits}

omit [Runtime] in
theorem reports_checkVersions (value : Json) (raws : List Json) :
    Reports [faultIf .unsupportedSchemaVersion
        (¬ (versionUnsupported value = false ∧ ∀ raw ∈ raws, versionUnsupported raw = false))]
      (checkVersions value raws) :=
  .of_eq_ok checkVersions_eq_ok
    (blames_returnIf.bind fun _ _ => .forM fun _ _ => blames_returnIf)

theorem reports_loadManifest (value : Json) :
    Reports [faultIf .unsupportedSchemaVersion
          (¬ (isObject value = true ∧ equalsOne (getKey "schema_version" value) = true)),
        faultIf .schemaViolation
          (¬ ∃ manifest, validateRaw TrajectoryManifestV1.codec value = .ok manifest)]
      (loadManifest value) := by
  refine .cons (.of_eq_ok (returnIf_eq_ok.trans ?_) blames_returnIf) fun _ _ =>
    .of_exists ?_ (blames_onValueError _ fun _ => blames_failure)
  · rw [Bool.or_eq_false_iff, Bool.not_eq_false', Bool.not_eq_false']
  · simp only [catching_eq_ok]

theorem reports_loadRecords (raws : List Json) :
    Reports [faultIf .schemaViolation
        (¬ ∀ raw ∈ raws, ∃ record, isObject raw = true ∧ validateRecord raw = .ok record)]
      (raws.mapM loadRecord) := by
  refine .of_exists ⟨?_, ?_⟩ (.mapM fun raw _ => blames_returnIf.bind fun _ _ =>
    blames_onValueError _ fun _ => blames_failure)
  · rintro ⟨records, hrecords⟩ raw hraw
    obtain ⟨record, hrecord, -⟩ := Except.exists_mem_of_mapM hrecords hraw
    exact ⟨record, loadRecord_eq_ok.mp hrecord⟩
  · intro h
    apply Except.exists_mapM_ok
    intro raw hraw
    obtain ⟨record, hrecord⟩ := h raw hraw
    exact ⟨record, loadRecord_eq_ok.mpr hrecord⟩

theorem blames_checkHashes (manifest : TrajectoryManifestV1) (actual : Hash)
    (records : List TrajectoryRecord) :
    Raises (Blames .hashMismatch) (checkHashes manifest actual records) := by
  rw [checkHashes]
  refine Raises.bind (.forM fun _ _ => blames_onValueError _ fun _ => blames_failure) fun _ _ => ?_
  split
  · exact blames_onValueError _ fun _ => blames_failure
  · exact .ok ()

/-- What the contents are checked for once they have been read. -/
theorem reports_authenticateRead {value : Json} {raws : List Json}
    (hvalue : parseFile manifestBytes .manifest limits = .ok value)
    (hraws : parseLines trajectory limits = .ok raws) :
    Reports [faultsOf (contentFaults limits manifestBytes trajectory),
        episodeFault limits manifestBytes trajectory]
      (authenticateRead manifestBytes trajectory value raws) := by
  apply Reports.of_table
  · simp only [contentFaults, List.map_cons, List.map_nil, List.cons_append, List.nil_append,
      episodeFault, exists_line_iff hraws, readValue_of_parseFile hvalue, readLines_eq hraws,
      Option.mem_some_iff, exists_eq_left']
    rw [authenticateRead]
    refine .cons ((reports_checkVersions value raws).congr ?_) fun _ _ => ?_
    · simp only [not_and_or, not_forall, exists_prop, Bool.not_eq_false]
    refine .bind (reports_loadManifest value) fun manifest hm => ?_
    refine .cons ((reports_loadRecords raws).congr (by simp)) fun records hr => ?_
    simp only [readManifest_eq hvalue hm, readRecords_eq hraws hr, Option.mem_some_iff,
      exists_eq_left']
    refine .cons (.of_eq_ok checkManifestEncoding_eq_ok ?_) fun _ _ => ?_
    · exact (blames_ofPy _).bind fun _ _ => blames_returnIf
    refine .cons (.of_eq_ok checkTrajectoryEncoding_eq_ok ?_) fun _ _ => ?_
    · exact blames_returnIf.bind fun _ _ => (blames_ofPy _).bind fun _ _ => blames_returnIf
    refine .cons (.of_eq_ok checkDigest_eq_ok blames_returnIf) fun _ _ => ?_
    refine .cons ((Reports.of_eq_ok checkOrder_eq_ok blames_returnIf).congr (by simp)) fun _ _ => ?_
    refine .cons ((Reports.of_eq_ok checkHashes_eq_ok (blames_checkHashes _ _ _)).congr ?_)
      fun _ _ => ?_
    · simp only [validateChildHashes_eq_ok, validateIncompleteHashes_eq_ok]
    refine .cons (.of_eq_ok checkReferences_eq_ok ?_) fun _ _ => ?_
    · exact blames_returnIf.bind fun _ _ => blames_returnIf
    refine .cons (.of_exists (by simp only [buildEpisode_eq_ok]) ?_) fun episode hepisode => ?_
    · refine blames_catching _ fun e r hr => ?_
      split_ifs at hr <;> cases hr
      exact blames_failure
    obtain ⟨hash, hhash⟩ := exists_episodeHash episode
    rw [hhash]
    refine Reports.map (Reports.congr (.returnIf (hash ≠ manifest.episodeHash)) ?_) _
    simp [buildEpisode_eq_ok.mp hepisode, hhash]
  · show [FailureCode.unsupportedSchemaVersion, .unsupportedSchemaVersion, .schemaViolation,
      .schemaViolation, .noncanonicalEncoding, .noncanonicalEncoding, .manifestMismatch,
      .orderViolation, .hashMismatch, .referenceMismatch, .referenceMismatch].Pairwise (· ≤ ·)
    decide

end Contents

/-! ### The replay -/

section Replay

variable {a : Authenticated} {trajectory : Bytes}

theorem reports_check (t : TransitionV1) (i : ℕ) (check : Check) :
    Reports [faultsOf (checkFaults check)]
      (catching (onReplayError a trajectory t i) check.run) := by
  have hfaults (code : FailureCode) : code ∈ faultsOf (checkFaults check) ↔
      code = .unknownImplementation ∧ (∃ e, check.run = .error e ∧ e.cls = .lookupError)
        ∨ code = .replayMismatch ∧ ∃ e, check.run = .error e ∧ IsReplayFailure e := by
    simp [checkFaults]
  cases hrun : check.run with
  | ok u =>
    intro S hS
    rw [List.mem_singleton.mp hS]
    simp only [hrun, reduceCtorEq, false_and, exists_false, and_false, or_self] at hfaults
    exact Set.ext hfaults
  | error e =>
    simp only [hrun, Except.error.injEq, exists_eq_left'] at hfaults
    by_cases hlookup : e.cls = .lookupError
    · rw [catching, onReplayError, if_pos hlookup]
      refine .returned ⟨(hfaults _).mpr (.inl ⟨rfl, hlookup⟩), fun code hcode => ?_⟩
      rcases (hfaults code).mp hcode with ⟨rfl, -⟩ | ⟨rfl, -⟩ <;> decide
    · by_cases hfailure : IsReplayFailure e
      · rw [catching, onReplayError, if_neg hlookup,
          if_pos (show e.cls = .referenceError ∨ e.isRuntimeError = true from hfailure)]
        refine .returned ⟨(hfaults _).mpr (.inr ⟨rfl, hfailure⟩), fun code hcode => ?_⟩
        rcases (hfaults code).mp hcode with ⟨-, h⟩ | ⟨rfl, -⟩
        · exact absurd h hlookup
        · exact le_rfl
      · rw [catching, onReplayError_of_other trajectory a t i hlookup hfailure]
        exact .raised e

/-- One check of a transition after another. -/
theorem reports_checks (t : TransitionV1) (i : ℕ) (cs : List Check) :
    Reports (cs.map fun check => faultsOf (checkFaults check))
      (catching (onReplayError a trajectory t i) (forM cs Check.run)) := by
  induction cs with
  | nil => exact fun S hS => absurd hS List.not_mem_nil
  | cons check cs ih =>
    have hsplit : catching (onReplayError a trajectory t i) (forM (check :: cs) Check.run)
        = (do
          catching (onReplayError a trajectory t i) check.run
          catching (onReplayError a trajectory t i) (forM cs Check.run)) := by
      rw [List.forM_cons]
      cases check.run with
      | ok u => rfl
      | error e =>
        rw [Except.error_bind, catching]
        cases onReplayError a trajectory t i e <;> rfl
    rw [hsplit, List.map_cons]
    exact .cons (reports_check t i check) fun _ _ => ih

/-- One transition after another. -/
theorem reports_replayLoop (registry : ImplementationRegistry) (transitions : List TransitionV1)
    (k : ℕ) :
    Reports ((transitions.flatMap (checks registry)).map fun check => faultsOf (checkFaults check))
      (replayLoop registry (onReplayError a trajectory) transitions k) := by
  induction transitions generalizing k with
  | nil => exact fun S hS => absurd hS List.not_mem_nil
  | cons t transitions ih =>
    rw [replayLoop, List.zipIdx_cons, List.forM_cons, List.flatMap_cons, List.map_append]
    simp only [replayTransition_eq]
    exact (reports_checks t k _).bind fun _ _ => by
      have hrest := ih (k + 1)
      rw [replayLoop] at hrest
      simpa only [replayTransition_eq] using hrest

end Replay

/-! ### The whole verification -/

section Verification

variable [Runtime] {manifestBytes trajectory : Bytes} {registry : ImplementationRegistry}
  {entryNames : List String} {limits : BundleLimits} {a : Authenticated}

theorem reports_authenticate :
    Reports (faultsOf (bundleFaults manifestBytes trajectory entryNames limits)
        :: faultsOf (partFaults limits manifestBytes)
        :: faultIf .resourceLimitExceeded (limits.maxRecords < (splitLines trajectory).length)
        :: (splitLines trajectory).map (fun line => faultsOf (partFaults limits line))
        ++ [faultsOf (contentFaults limits manifestBytes trajectory),
          episodeFault limits manifestBytes trajectory])
      (authenticate manifestBytes trajectory entryNames limits) := by
  rw [authenticate_eq]
  refine .cons reports_checkBundle fun _ _ => .cons (reports_parseFile _ _) fun value hvalue => ?_
  exact reports_parseLines.bind fun raws hraws => reports_authenticateRead hvalue hraws

theorem reports_replay (registry : ImplementationRegistry)
    (h : authenticate manifestBytes trajectory entryNames limits = .ok a) :
    Reports ((replayChecks registry limits trajectory).map
          (fun check => faultsOf (checkFaults check))
        ++ [completenessFault limits manifestBytes])
      (replay registry trajectory a) := by
  have hstages := authenticate_eq_ok.mp h
  obtain ⟨value, hvalue, -, hmanifest⟩ := hstages.manifest
  obtain ⟨first, -, hepisode, -⟩ := assemble_eq_ok.mp (buildEpisode_eq_ok.mp hstages.episode)
  have hstatus : a.episode.status = a.manifest.episodeStatus := by
    rw [hepisode]
    rfl
  rw [replayChecks, readRecords_eq hstages.raws hstages.records, Option.elim_some, replay]
  refine .bind (reports_replayLoop registry (transitionsOf a.records) 0) fun _ _ => ?_
  refine Reports.map (Reports.congr (.returnIf (a.episode.status = .incomplete)) ?_) _
  rw [readManifest_eq hvalue hmanifest, hstatus]
  simp

omit [Runtime] in
/-- A replay that ends blames nothing. -/
theorem firstFailure_of_replay {r : ReplayVerificationV1}
    (h : replay registry trajectory a = .ok r) : r.firstFailure = none := by
  rw [replay] at h
  obtain ⟨-, -, h⟩ := Except.bind_eq_ok.mp h
  obtain ⟨-, -, h⟩ := Except.bind_eq_ok.mp h
  cases h
  rfl

/-- What is reported is the least of all that is wrong. -/
def ReportsLeast (manifestBytes trajectory : Bytes) (registry : ImplementationRegistry)
    (entryNames : List String) (limits : BundleLimits) : Prop :=
  ∀ r, verifyBundle manifestBytes trajectory registry entryNames limits = .ok r →
    ∀ f ∈ r.firstFailure,
      IsLeast {code | Violates manifestBytes trajectory registry entryNames limits code} f.code

/-- The faults that can mask one before them: those of a file or line by itself, a wrong reference
    and a failed replay. -/
def Masks (limits : BundleLimits) (manifestBytes trajectory : Bytes) (code masked : FailureCode) :
    Prop :=
  (∃ data ∈ manifestBytes :: splitLines trajectory, code ∈ faultsOf (partFaults limits data))
    ∨ code = .referenceMismatch ∧ masked = .hashMismatch
    ∨ code = .replayMismatch ∧ masked = .unknownImplementation

/-- A fault of the first scope comes before one of the second, or may mask it. -/
def Precedes (limits : BundleLimits) (manifestBytes trajectory : Bytes) (S T : Set FailureCode) :
    Prop :=
  ∀ code ∈ S, ∀ masked ∈ T, code ≤ masked ∨ Masks limits manifestBytes trajectory code masked

theorem precedes_of_subset {S T : Set FailureCode} {low high low' high' : FailureCode}
    (hS : S ⊆ Set.Icc low high) (hT : T ⊆ Set.Icc low' high') (h : high ≤ low') :
    Precedes limits manifestBytes trajectory S T := by
  intro code hcode masked hmasked
  exact .inl (((hS hcode).2.trans h).trans (hT hmasked).1)

theorem precedes_part {data : Bytes} (hdata : data ∈ manifestBytes :: splitLines trajectory)
    (T : Set FailureCode) :
    Precedes limits manifestBytes trajectory (faultsOf (partFaults limits data)) T :=
  fun _ hcode _ _ => .inr (.inl ⟨data, hdata, hcode⟩)

theorem partFaults_subset (data : Bytes) : faultsOf (partFaults limits data)
    ⊆ Set.Icc .resourceLimitExceeded .noncanonicalEncoding := by
  apply faultsOf_subset
  show ∀ code ∈ [FailureCode.resourceLimitExceeded, .invalidUtf8, .invalidJson,
    .noncanonicalEncoding], _
  decide

theorem contentFaults_subset : faultsOf (contentFaults limits manifestBytes trajectory)
    ⊆ Set.Icc .unsupportedSchemaVersion .referenceMismatch := by
  apply faultsOf_subset
  show ∀ code ∈ [FailureCode.unsupportedSchemaVersion, .unsupportedSchemaVersion, .schemaViolation,
    .schemaViolation, .noncanonicalEncoding, .noncanonicalEncoding, .manifestMismatch,
    .orderViolation, .hashMismatch, .referenceMismatch, .referenceMismatch], _
  decide

omit [Runtime] in
theorem checkFaults_subset (check : Check) :
    faultsOf (checkFaults check) ⊆ Set.Icc .unknownImplementation .replayMismatch := by
  apply faultsOf_subset
  show ∀ code ∈ [FailureCode.unknownImplementation, .replayMismatch], _
  decide

theorem episodeFault_subset :
    episodeFault limits manifestBytes trajectory ⊆ Set.Icc .hashMismatch .hashMismatch :=
  faultIf_subset (by decide)

theorem completenessFault_subset :
    completenessFault limits manifestBytes ⊆ Set.Icc .episodeIncomplete .episodeIncomplete :=
  faultIf_subset (by decide)

/-- A wrong reference is the only fault of the contents that comes after the hash of the episode. -/
theorem precedes_episodeFault :
    Precedes limits manifestBytes trajectory
      (faultsOf (contentFaults limits manifestBytes trajectory))
      (episodeFault limits manifestBytes trajectory) := by
  rintro code hcode masked hmasked
  obtain ⟨rfl, -⟩ := hmasked
  have hlast : ∀ code : FailureCode, code ≤ .referenceMismatch →
      code ≤ .hashMismatch ∨ code = .referenceMismatch := by
    intro code
    cases code <;> decide
  rcases hlast code (contentFaults_subset hcode).2 with hle | rfl
  · exact .inl hle
  · exact .inr (.inr (.inl ⟨rfl, rfl⟩))

/-- A failed replay may mask an implementation that is missing later on. -/
theorem precedes_checks (check check' : Check) :
    Precedes limits manifestBytes trajectory (faultsOf (checkFaults check))
      (faultsOf (checkFaults check')) := by
  intro code hcode masked hmasked
  have hcases : ∀ code : FailureCode, code ∈ Set.Icc .unknownImplementation .replayMismatch →
      code = .unknownImplementation ∨ code = .replayMismatch := by
    intro code
    cases code <;> simp only [Set.mem_Icc] <;> decide
  have hmasked' := checkFaults_subset check' hmasked
  rcases hcases code (checkFaults_subset check hcode) with rfl | rfl
  · exact .inl hmasked'.1
  · rcases hcases masked hmasked' with rfl | rfl
    · exact .inr (.inr (.inr ⟨rfl, rfl⟩))
    · exact .inl le_rfl

/-- The scopes that follow the reading. -/
theorem pairwise_later :
    (faultsOf (contentFaults limits manifestBytes trajectory)
      :: episodeFault limits manifestBytes trajectory
      :: (replayChecks registry limits trajectory).map (fun check => faultsOf (checkFaults check))
      ++ [completenessFault limits manifestBytes]).Pairwise
        (Precedes limits manifestBytes trajectory) := by
  have hreplay {S : Set FailureCode} {low high : FailureCode} (hS : S ⊆ Set.Icc low high)
      (h : high ≤ .unknownImplementation) : ∀ T ∈ (replayChecks registry limits trajectory).map
        (fun check => faultsOf (checkFaults check)) ++ [completenessFault limits manifestBytes],
        Precedes limits manifestBytes trajectory S T := by
    intro T hT
    rcases List.mem_append.mp hT with hT | hT
    · obtain ⟨check, -, rfl⟩ := List.mem_map.mp hT
      exact precedes_of_subset hS (checkFaults_subset check) h
    · rw [List.mem_singleton.mp hT]
      exact precedes_of_subset hS completenessFault_subset (h.trans (by decide))
  refine .cons (List.forall_mem_cons.mpr ⟨precedes_episodeFault, ?_⟩) (.cons ?_ ?_)
  · exact hreplay contentFaults_subset (by decide)
  · exact hreplay episodeFault_subset (by decide)
  · refine List.pairwise_append.mpr ⟨?_, List.pairwise_singleton _ _, ?_⟩
    · rw [List.pairwise_map]
      exact List.pairwise_of_forall precedes_checks
    · intro S hS T hT
      obtain ⟨check, -, rfl⟩ := List.mem_map.mp hS
      rw [List.mem_singleton.mp hT]
      exact precedes_of_subset (checkFaults_subset check) completenessFault_subset (by decide)

theorem pairwise_scopes : (scopes manifestBytes trajectory registry entryNames limits).Pairwise
    (Precedes limits manifestBytes trajectory) := by
  have hbundle : faultsOf (bundleFaults manifestBytes trajectory entryNames limits)
      ⊆ Set.Icc .bundleEntrySet .resourceLimitExceeded := by
    apply faultsOf_subset
    show ∀ code ∈ [FailureCode.bundleEntrySet, .resourceLimitExceeded], _
    decide
  have hlast : ∀ code : FailureCode, code ≤ .episodeIncomplete := by
    intro code
    cases code <;> decide
  have hany {S : Set FailureCode} {low high : FailureCode} (hS : S ⊆ Set.Icc low high)
      (h : .resourceLimitExceeded ≤ low) :
      S ⊆ Set.Icc .resourceLimitExceeded .episodeIncomplete :=
    fun code hcode => ⟨h.trans (hS hcode).1, hlast code⟩
  have hlines : ∀ T ∈ (splitLines trajectory).map (fun line => faultsOf (partFaults limits line))
      ++ (faultsOf (contentFaults limits manifestBytes trajectory)
        :: episodeFault limits manifestBytes trajectory
        :: (replayChecks registry limits trajectory).map (fun check => faultsOf (checkFaults check))
        ++ [completenessFault limits manifestBytes]),
      T ⊆ Set.Icc .resourceLimitExceeded .episodeIncomplete := by
    simp only [List.forall_mem_append, List.forall_mem_cons, List.forall_mem_map]
    exact ⟨fun line _ => hany (partFaults_subset line) (by decide),
      ⟨hany contentFaults_subset (by decide), hany episodeFault_subset (by decide),
        fun check _ => hany (checkFaults_subset check) (by decide)⟩,
      hany completenessFault_subset (by decide), fun T hT => absurd hT List.not_mem_nil⟩
  have hcount : faultIf FailureCode.resourceLimitExceeded
        (limits.maxRecords < (splitLines trajectory).length)
      ⊆ Set.Icc .resourceLimitExceeded .resourceLimitExceeded := faultIf_subset (by decide)
  rw [scopes, List.append_assoc]
  refine .cons ?_ (.cons (fun T _ => precedes_part List.mem_cons_self T) (.cons ?_ ?_))
  · intro T hT
    have hlater : T ⊆ Set.Icc .resourceLimitExceeded .episodeIncomplete := by
      rcases List.mem_cons.mp hT with rfl | hT
      · exact hany (partFaults_subset manifestBytes) (by decide)
      · rcases List.mem_cons.mp hT with rfl | hT
        · exact hany hcount (by decide)
        · exact hlines T hT
    exact precedes_of_subset hbundle hlater le_rfl
  · exact fun T hT => precedes_of_subset hcount (hlines T hT) le_rfl
  · have hline {S : Set FailureCode}
        (hS : S ∈ (splitLines trajectory).map fun line => faultsOf (partFaults limits line))
        (T : Set FailureCode) : Precedes limits manifestBytes trajectory S T := by
      obtain ⟨line, hline, rfl⟩ := List.mem_map.mp hS
      exact precedes_part (List.mem_cons_of_mem _ hline) T
    exact List.pairwise_append.mpr ⟨List.pairwise_of_forall_mem_list fun S hS T _ => hline hS T,
      pairwise_later, fun S hS T _ => hline hS T⟩

theorem reports_verification (manifestBytes trajectory : Bytes) (registry : ImplementationRegistry)
    (entryNames : List String) (limits : BundleLimits) :
    Reports (scopes manifestBytes trajectory registry entryNames limits)
      (authenticate manifestBytes trajectory entryNames limits >>= replay registry trajectory) := by
  have hstages : ∀ a, authenticate manifestBytes trajectory entryNames limits = .ok a → _ :=
    fun _ => reports_replay registry
  have hscopes := reports_authenticate.bind hstages
  simpa only [scopes, List.cons_append, List.nil_append, List.append_assoc] using hscopes

/-- **Precedence.**  A verification that reports nothing has found nothing wrong.  What it reports
    is the least fault of the first scope that has any, and the least of all but for those that it
    masks. -/
theorem verifyBundle_precedence {r : ReplayVerificationV1}
    (h : verifyBundle manifestBytes trajectory registry entryNames limits = .ok r) :
    match r.firstFailure with
    | none => ∀ code, ¬ Violates manifestBytes trajectory registry entryNames limits code
    | some f => Decides (scopes manifestBytes trajectory registry entryNames limits) f.code
        ∧ ∀ code, Violates manifestBytes trajectory registry entryNames limits code →
          f.code ≤ code ∨ Masks limits manifestBytes trajectory f.code code := by
  have hreports := reports_verification manifestBytes trajectory registry entryNames limits
  rw [verifyBundle] at h
  generalize hresult : authenticate manifestBytes trajectory entryNames limits
      >>= replay registry trajectory = result at h hreports
  rcases result with (r' | e) | r'
  · obtain ⟨f, hf, hdecides⟩ := hreports
    cases h
    rw [Option.mem_def.mp hf]
    refine ⟨hdecides, ?_⟩
    rintro code ⟨S, hS, hcode⟩
    exact hdecides.le_or pairwise_scopes S hS code hcode
  · cases h
  · cases h
    obtain ⟨a, -, hreplay⟩ := Except.bind_eq_ok.mp hresult
    rw [firstFailure_of_replay hreplay]
    rintro code ⟨S, hS, hcode⟩
    rw [hreports S hS] at hcode
    exact hcode

end Verification

section Sample

attribute [local instance] canonicalRuntime

/-- A manifest with a byte order mark, with a line that is no JSON. -/
def markedManifest : Bytes := utf8 ['\uFEFF', '{', '}']

def openLine : Bytes := utf8 ['{']

theorem verifyBundle_marked (registry : ImplementationRegistry) :
    verifyBundle markedManifest openLine registry
      = .ok (failure .noncanonicalEncoding .canonical .manifest "UTF-8 BOM is forbidden") := by
  have hbundle : checkBundle markedManifest openLine [manifestFile, trajectoryFile] {} = .ok () :=
    rfl
  have hparse : parseText {} ['\uFEFF', '{', '}'] = .ok (.obj []) := rfl
  have hmanifest : parseFile markedManifest .manifest {} = .error (.returned
      (failure .noncanonicalEncoding .canonical .manifest "UTF-8 BOM is forbidden")) := by
    rw [parseFile_eq, markedManifest, decodeUtf8_utf8]
    simp only [hparse]
    rfl
  rw [verifyBundle, authenticate_eq, hbundle, Except.ok_bind, hmanifest]
  rfl

theorem invalidJson_openLine : Violates markedManifest openLine EpisodeScope.neutralRegistry
    [manifestFile, trajectoryFile] {} .invalidJson := by
  have hline : openLine ∈ splitLines openLine := by
    show openLine ∈ [openLine]
    exact List.mem_singleton_self _
  have hparse : ∃ e, parseText {} ['{'] = .error e ∧ e.cls = .valueError := ⟨_, rfl, rfl⟩
  refine ⟨faultsOf (partFaults {} openLine), ?_, ?_⟩
  · simp only [scopes, List.mem_append, List.mem_cons, List.mem_map]
    exact .inl (.inl (.inr (.inr (.inr ⟨openLine, hline, rfl⟩))))
  · exact (mem_partFaults (decodeUtf8_utf8 ['{']) {} _).mpr (.inr (.inl ⟨rfl, hparse⟩))

theorem verifyBundle_precedence_marked :
    Decides (scopes markedManifest openLine EpisodeScope.neutralRegistry
        [manifestFile, trajectoryFile] {}) .noncanonicalEncoding
      ∧ ∀ code, Violates markedManifest openLine EpisodeScope.neutralRegistry
          [manifestFile, trajectoryFile] {} code → .noncanonicalEncoding ≤ code
        ∨ Masks {} markedManifest openLine .noncanonicalEncoding code :=
  verifyBundle_precedence (verifyBundle_marked EpisodeScope.neutralRegistry)

/-- A registry whose coordinator decides otherwise and which knows no rewards. -/
def contraryRegistry : ImplementationRegistry :=
  { EpisodeScope.neutralRegistry with
    reward := fun _ => none
    coordinator := fun _ => some fun _ _ => .ok true }

/-- The byte order mark masks the line that is no JSON, and the coordinator the missing rewards. -/
theorem not_reportsLeast :
    ¬ ReportsLeast markedManifest openLine EpisodeScope.neutralRegistry
        [manifestFile, trajectoryFile] {}
      ∧ ¬ ReportsLeast (lineOf (TrajectoryManifestV1.codec.dump (sampleManifest sample.completed)))
        sample.completed.trajectory contraryRegistry [manifestFile, trajectoryFile] {} := by
  constructor
  · intro h
    have hleast := h _ (verifyBundle_marked _) _ rfl
    exact absurd (hleast.2 invalidJson_openLine) (by decide)
  · intro h
    obtain ⟨hauthentic, -⟩ :=
      completed_verifies (describes_sampleManifest _) length_refs_completed
    have hstages := authenticate_eq_ok.mp hauthentic
    have hfirst : (presented (sampleManifest sample.completed) sample.completed).firstFailing
        contraryRegistry = some (.asked (.ok true) "coordinator replay mismatch") := rfl
    obtain ⟨t, i, hresult⟩ := replayResult_of_some sample.completed.trajectory hfirst rfl
    have hleast := h _ ((verifyBundle_of_authenticate hauthentic).trans hresult) _ rfl
    have hmissing : Violates (lineOf (TrajectoryManifestV1.codec.dump
        (sampleManifest sample.completed))) sample.completed.trajectory contraryRegistry
        [manifestFile, trajectoryFile] {} .unknownImplementation := by
      have hcheck : Check.missing "unknown reward implementation"
          ∈ replayChecks contraryRegistry {} sample.completed.trajectory := by
        rw [replayChecks, readRecords_eq hstages.raws hstages.records]
        refine List.mem_flatMap.mpr ⟨sample.firstTransition (some sample.reasonCode), ?_, ?_⟩
        · exact List.mem_singleton_self _
        · refine List.mem_append_right _ (List.mem_cons_of_mem _ (List.mem_append_left _ ?_))
          exact List.mem_cons_self
      refine ⟨faultsOf (checkFaults (.missing "unknown reward implementation")), ?_, ?_⟩
      · simp only [scopes, List.mem_append, List.mem_cons, List.mem_map]
        exact .inl (.inr (.inr (.inr ⟨_, hcheck, rfl⟩)))
      · exact ⟨_, List.mem_cons_self, rfl, _, rfl, rfl⟩
    have hbefore : ¬ FailureCode.replayMismatch ≤ .unknownImplementation := by decide
    exact hbefore (hleast.2 hmissing)

end Sample

end Agora.Marl
