import Agora.Api.Transactions
import Agora.Lib.Runs

namespace Agora.Api

open Artifacts Stateful
open Marl (Hash)

/-!
# Once per key

Whatever the order of the steps, the requests with one workspace, operation and key have one effect:
the first that commits leaves a record, and the later ones get the answer of that record.
Revisions and withdrawals of one version of an artifact have one effect too, whatever their keys.
-/

/-! ### What an action does to artifacts -/

/-- There is an artifact with this id, and none is active. -/
structure Retired (s : ReasoningState) (id : UUID) : Prop where
  stored : ∃ a ∈ s.artifacts, a.id = id
  inactive : ∀ a ∈ s.artifacts, a.id = id → a.status ≠ .active

/-- Retired artifacts stay retired, and the target of the command was not retired and is now. -/
structure Retires (target : Option UUID) (s s' : ReasoningState) : Prop where
  kept : ∀ id, Retired s id → Retired s' id
  before : ∀ id, target = some id → ¬ Retired s id
  now : ∀ id, target = some id → Retired s' id

section Actions

variable {s s' : ReasoningState} {id : UUID}

theorem not_retired {w n : UUID} {a : ReasoningArtifact} (h : s.artifact? w n id = some a)
    (hactive : a.status = .active) : ¬ Retired s id := by
  obtain ⟨ha, -, -, hid⟩ := artifact?_some h
  intro hretired
  exact hretired.inactive a ha hid hactive

theorem marked_id (id : UUID) (status : LifecycleStatus) (updatedAt : Datetime)
    (a : ReasoningArtifact) : (a.marked id status updatedAt).id = a.id := by
  unfold ReasoningArtifact.marked
  split_ifs <;> rfl

/-- A mark that is not ACTIVE retires its artifact. -/
theorem retired_mark {w n : UUID} {a : ReasoningArtifact} (h : s.artifact? w n id = some a)
    {status : LifecycleStatus} (hstatus : status ≠ .active) (updatedAt : Datetime) :
    Retired (s.mark id status updatedAt) id := by
  obtain ⟨ha, -, -, hid⟩ := artifact?_some h
  constructor
  · exact ⟨_, List.mem_map_of_mem ha, (marked_id _ _ _ _).trans hid⟩
  · intro b hb hbid
    obtain ⟨c, -, rfl⟩ := List.mem_map.mp hb
    rw [marked_id] at hbid
    rwa [ReasoningArtifact.marked, if_pos hbid]

theorem Retired.mark (h : Retired s id) (other : UUID) {status : LifecycleStatus}
    (hstatus : status ≠ .active) (updatedAt : Datetime) :
    Retired (s.mark other status updatedAt) id := by
  obtain ⟨a, ha, hid⟩ := h.stored
  constructor
  · exact ⟨_, List.mem_map_of_mem ha, (marked_id _ _ _ _).trans hid⟩
  · intro b hb hbid
    obtain ⟨c, hc, rfl⟩ := List.mem_map.mp hb
    rw [marked_id] at hbid
    unfold ReasoningArtifact.marked
    split_ifs with hother
    · exact hstatus
    · exact h.inactive c hc hbid

/-- A new artifact has another id. -/
theorem Retired.extend (h : Retired s id) {artifact : ReasoningArtifact}
    (hfresh : s.freshArtifact artifact = true) (node : GraphNode) (edges : List GraphEdge)
    (ledger : Ledger.LedgerState) : Retired (s.extend artifact node edges ledger) id := by
  obtain ⟨a, ha, hid⟩ := h.stored
  have hother := (freshArtifact_iff.mp hfresh a ha).1
  constructor
  · exact ⟨a, List.mem_append_left _ ha, hid⟩
  · intro b hb hbid
    rcases List.mem_append.mp hb with hb | hb
    · exact h.inactive b hb hbid
    · obtain rfl := List.mem_singleton.mp hb
      exact absurd (hid.trans hbid.symm) hother

theorem freshArtifact_mark {a : ReasoningArtifact} (h : s.freshArtifact a = true) (other : UUID)
    (status : LifecycleStatus) (updatedAt : Datetime) :
    (s.mark other status updatedAt).freshArtifact a = true := by
  rw [freshArtifact_iff] at h ⊢
  intro b hb
  obtain ⟨c, hc, rfl⟩ := List.mem_map.mp hb
  have hbody : (c.marked other status updatedAt).revisionKey = c.revisionKey := by
    unfold ReasoningArtifact.marked
    split_ifs <;> rfl
  rw [marked_id, hbody]
  exact h c hc

variable {db : ReasoningDatabase} {context : ArtifactEventContext} {result : ArtifactWriteResult}

theorem retires_commit {artifact : ReasoningArtifact} {nodeId : UUID} {edgeIds : List UUID}
    {label : String}
    (h : commit db artifact nodeId edgeIds label context s = (.ok result, s')) :
    Retires none s s' := by
  obtain ⟨-, node, edges, event, e, ledger, hprojects, -, -, -, rfl⟩ := commit_ok.mp h
  exact ⟨fun id hid => hid.extend hprojects.fresh _ _ _, by simp, by simp⟩

theorem retires_revise {artifact : ReasoningArtifact} {nodeId edgeId : UUID} {edgeIds : List UUID}
    {label reason : String}
    (h : revise db artifact nodeId edgeId edgeIds label reason context s = (.ok result, s')) :
    Retires artifact.supersedesId s s' := by
  obtain ⟨previous, previousNode, node, edges, edge, event, e, ledger, hrevises, -, -, -, rfl⟩ :=
    revise_ok.mp h
  have hfresh := freshArtifact_mark hrevises.projects.fresh previous.id .superseded
    context.recordedAt
  rw [hrevises.supersedes]
  constructor
  · intro id hid
    exact (hid.mark previous.id (by simp) _).extend hfresh _ _ _
  · rintro id ⟨⟩
    exact not_retired hrevises.predecessor.found hrevises.predecessor.active
  · rintro id ⟨⟩
    exact (retired_mark hrevises.predecessor.found (by simp) _).extend hfresh _ _ _

theorem retires_withdraw {w n id : UUID} {reason : String} {warrants : List UUID}
    (h : withdraw db w n id reason warrants context s = (.ok result, s')) :
    Retires (some id) s s' := by
  obtain ⟨artifact, event, e, ledger, hwithdraws, -, -, -, rfl⟩ := withdraw_ok.mp h
  constructor
  · intro id' hid'
    have hmark : Retired (s.mark id .withdrawn context.recordedAt) id' := hid'.mark id (by simp) _
    exact ⟨hmark.stored, hmark.inactive⟩
  · rintro _ ⟨⟩
    exact not_retired hwithdraws.found hwithdraws.active
  · rintro _ ⟨⟩
    have hmark : Retired (s.mark id .withdrawn context.recordedAt) id :=
      retired_mark hwithdraws.found (by simp) _
    exact ⟨hmark.stored, hmark.inactive⟩

variable {container : Container} {ch : Choices} {t : Txn}
  {action : Stateful ReasoningState PyException (ℕ × Json)} {answer : ℕ × Json}

theorem artifactOf_supersedesId {r : Request} {input : ArtifactInput} {place : Place}
    {artifact : ReasoningArtifact} (h : artifactOf container ch r input place = .ok artifact) :
    artifact.supersedesId = place.supersedesId := by
  obtain ⟨payload, -, h⟩ := Except.bind_eq_ok.mp h
  obtain ⟨hfields, -, -⟩ := validateArtifact_ok h
  rw [hfields]

/-- **Actions.**  A transaction that holds its row retires the target of its command. -/
theorem retires_action (h : t.action? container ch = some action)
    (hheld : ∀ previous, t.phase = .held previous → t.request.command.target? = some previous.id)
    (hrun : transaction container.db action s = (.ok answer, s')) :
    Retires t.request.command.target? s s' := by
  have hrun := (transaction_ok.mp hrun).1
  unfold Txn.action? at h
  split at h
  · next hphase hcommand =>
    obtain rfl := Option.some.inj h
    obtain ⟨artifact, -, hrun⟩ := lift_bind_eq_ok.mp hrun
    obtain ⟨result, u, hcommit, hrun⟩ := bind_eq_ok.mp hrun
    obtain ⟨response, -, hrun⟩ := lift_bind_eq_ok.mp hrun
    obtain ⟨-, rfl⟩ := Prod.mk.inj hrun
    rw [hcommand]
    exact retires_commit hcommit
  · next hphase hcommand =>
    obtain rfl := Option.some.inj h
    obtain ⟨revision, hrevision, hrun⟩ := lift_bind_eq_ok.mp hrun
    obtain ⟨result, u, hrevise, hrun⟩ := bind_eq_ok.mp hrun
    obtain ⟨response, -, hrun⟩ := lift_bind_eq_ok.mp hrun
    obtain ⟨-, rfl⟩ := Prod.mk.inj hrun
    have hretires := retires_revise hrevise
    rw [artifactOf_supersedesId hrevision] at hretires
    rwa [hheld _ hphase]
  · next hphase hcommand =>
    obtain rfl := Option.some.inj h
    obtain ⟨result, u, hwithdraw, hrun⟩ := bind_eq_ok.mp hrun
    obtain ⟨response, -, hrun⟩ := lift_bind_eq_ok.mp hrun
    obtain ⟨-, rfl⟩ := Prod.mk.inj hrun
    rw [hcommand]
    exact retires_withdraw hwithdraw
  · cases h

end Actions

/-! ### Steps -/

/-- What a step can do to the system. -/
inductive Change (container : Container) (s : System) : System → Prop
  | stays : Change container s s
  | refuses (r : Request) (e : ApiError) (h : container.prepare r = .error e) :
    Change container s { s with log := s.log ++ [⟨r, .failed e⟩] }
  | begins (i : ℕ) (r : Request) (requestHash : Hash) (hfree : s.running i = none)
    (h : container.prepare r = .ok requestHash) :
    Change container s
      { s with running := Function.update s.running i (some ⟨r, requestHash, .begun⟩) }
  | acquires (i : ℕ) (t : Txn) (hi : s.running i = some t) (hlock : s.locks t.request.scope = none)
    (hrecord : s.records.lookup t.request.scope = none) :
    Change container s { s.advance i t .locked with
      locks := Function.update s.locks t.request.scope (some i) }
  | answers (i : ℕ) (t : Txn) (hi : s.running i = some t) (record : IdempotencyRecord)
    (hrecord : s.records.lookup t.request.scope = some record) :
    Change container s (s.finish i t (record.answer t.requestHash))
  | advances (i : ℕ) (t : Txn) (hi : s.running i = some t) (hphase : t.phase ≠ .begun)
    (phase : Phase) (hnext : phase ≠ .begun)
    (hheld : ∀ previous, phase = .held previous → t.request.command.target? = some previous.id)
    (rowLocks : UUID → Option ℕ) :
    Change container s { s.advance i t phase with rowLocks }
  | fails (i : ℕ) (t : Txn) (hi : s.running i = some t) (hphase : t.phase ≠ .begun) (e : ApiError) :
    Change container s (s.finish i t (.failed e))
  | aborts (i : ℕ) (t : Txn) (hi : s.running i = some t) :
    Change container s (s.finish i t .aborted)
  | performs (i : ℕ) (t : Txn) (hi : s.running i = some t) (hphase : t.phase ≠ .begun)
    (ch : Choices) (action : Stateful ReasoningState PyException (ℕ × Json))
    (haction : t.action? container ch = some action) (status : ℕ) (body : Json)
    (reasoning : ReasoningState)
    (hrun : transaction container.db action s.reasoning = (.ok (status, body), reasoning))
    (hrecord : s.records.lookup t.request.scope = none) :
    Change container s { s.finish i t (.performed (respond status body)) with
      reasoning
      records := s.records ++ [(t.request.scope, ⟨t.requestHash, status, body⟩)] }

section Steps

variable (container : Container) (s : System) {i : ℕ} {t : Txn}

theorem change_begin (r : Request) (hfree : s.running i = none) :
    Change container s (s.begin container i r) := by
  unfold System.begin
  split
  · next e h => exact .refuses r e h
  · next requestHash h => exact .begins i r requestHash hfree h

theorem change_acquire (hi : s.running i = some t) : Change container s (s.acquire i t) := by
  unfold System.acquire
  split
  · exact .stays
  · next hlock =>
    split
    · next record hrecord => exact .answers i t hi record hrecord
    · next hrecord => exact .acquires i t hi hlock hrecord

theorem change_readArtifact (hi : s.running i = some t) (hphase : t.phase ≠ .begun)
    (artifactId : UUID) : Change container s (s.readArtifact i t artifactId) := by
  unfold System.readArtifact
  split
  · exact .fails i t hi hphase _
  · exact .advances i t hi hphase _ (by simp) (by simp) s.rowLocks

theorem change_lockRow (hi : s.running i = some t) (hphase : t.phase ≠ .begun) (sessionId : UUID)
    {artifactId : UUID} {ifMatch : ℕ}
    (h : t.request.command.expected? = some (artifactId, ifMatch)) :
    Change container s (s.lockRow i t sessionId artifactId ifMatch) := by
  unfold System.lockRow
  split
  · exact .stays
  · split
    · exact .fails i t hi hphase _
    · next previous hprevious =>
      split_ifs with hversion
      · exact .fails i t hi hphase _
      · obtain ⟨-, -, -, hid⟩ := artifact?_some hprevious
        refine .advances i t hi hphase _ (by simp) ?_ _
        rintro _ ⟨⟩
        rw [Command.target?, h, hid]
        rfl

theorem action?_begun {t : Txn} (hphase : t.phase = .begun) (ch : Choices) :
    t.action? container ch = none := by
  unfold Txn.action?
  rw [hphase]

theorem change_act (hi : s.running i = some t) {ch : Choices}
    {action : Stateful ReasoningState PyException (ℕ × Json)}
    (h : t.action? container ch = some action) :
    Change container s (s.act container i t action) := by
  have hphase : t.phase ≠ .begun := by
    intro hphase
    rw [action?_begun container hphase] at h
    cases h
  unfold System.act
  split
  · exact .fails i t hi hphase _
  · next status body reasoning hrun =>
    dsimp only
    split_ifs with hrecord
    · exact .performs i t hi hphase ch action h status body reasoning hrun
        (Option.isNone_iff_eq_none.mp hrecord.1)
    · exact .fails i t hi hphase _

theorem change_exec (m : Move) : Change container s (m.exec container s) := by
  unfold Move.exec
  cases hi : s.running m.index with
  | none =>
    cases m with
    | begin i r => exact change_begin container s r hi
    | acquire | read | lockRow | act | abort => exact .stays
  | some t =>
    cases m with
    | begin i r => exact .stays
    | acquire i =>
      simp only [System.stepTxn]
      split
      · exact change_acquire container s hi
      · exact .stays
    | read i =>
      simp only [System.stepTxn]
      split
      · next hphase _ => exact change_readArtifact container s hi (by simp [hphase]) _
      · exact .stays
    | lockRow i =>
      simp only [System.stepTxn]
      split
      · next hphase hexpected =>
        exact change_lockRow container s hi (by simp [hphase]) _ hexpected
      · exact .stays
    | act i ch =>
      simp only [System.stepTxn]
      split
      · next haction => exact change_act container s hi haction
      · exact .stays
    | abort i => exact .aborts i t hi

end Steps

/-! ### The invariant -/

/-- The answer to a later request with the key of `p`, which was performed with this response. -/
structure Answered (response : Response) (p q : Finished) : Prop where
  same : q.request.command.requestHash = p.request.command.requestHash →
    q.outcome = .aborted ∨ q.outcome = .replayed response
  other : q.request.command.requestHash ≠ p.request.command.requestHash →
    q.outcome = .aborted ∨ ∃ e, q.outcome = .failed e

/-- The later request `q` is answered from the record of `p`, if they have one key. -/
def Follows (p q : Finished) : Prop :=
  ∀ response, p.outcome = .performed response → q.request.scope = p.request.scope →
    Answered response p q

/-- Not both have had their effect on one version of an artifact. -/
def Excludes (p q : Finished) : Prop :=
  ∀ response response' id, p.outcome = .performed response → q.outcome = .performed response' →
    p.request.command.target? = some id → q.request.command.target? ≠ some id

/-- A performed request has passed the checks and left a record. -/
def Served (container : Container) (records : List (Scope × IdempotencyRecord)) (f : Finished)
    (response : Response) : Prop :=
  ∃ requestHash status body, container.prepare f.request = .ok requestHash
    ∧ response = respond status body
    ∧ records.lookup f.request.scope = some ⟨requestHash, status, body⟩

/-- An open transaction has passed the checks; once it has its lock, its key has no record. -/
structure Open (container : Container) (s : System) (i : ℕ) (t : Txn) : Prop where
  prepared : container.prepare t.request = .ok t.requestHash
  locked : t.phase ≠ .begun → s.locks t.request.scope = some i
  unused : t.phase ≠ .begun → s.records.lookup t.request.scope = none
  held : ∀ previous, t.phase = .held previous → t.request.command.target? = some previous.id

/-- What the requests that have ended have left in the tables. -/
structure History (container : Container) (reasoning : ReasoningState)
    (records : List (Scope × IdempotencyRecord)) (log : List Finished) : Prop where
  served : ∀ f ∈ log, ∀ response, f.outcome = .performed response →
    Served container records f response
  recorded : ∀ scope record, records.lookup scope = some record →
    ∃ f ∈ log, f.request.scope = scope ∧ ∃ response, f.outcome = .performed response
  retired : ∀ f ∈ log, ∀ response id, f.outcome = .performed response →
    f.request.command.target? = some id → Retired reasoning id
  follows : log.Pairwise Follows
  excludes : log.Pairwise Excludes

structure Sound (container : Container) (s : System) : Prop where
  opened : ∀ i t, s.running i = some t → Open container s i t
  history : History container s.reasoning s.records s.log

section Invariant

variable {container : Container} {s : System} {i : ℕ} {t : Txn}

/-- Requests with one key and one hash pass the same checks. -/
theorem prepare_congr {r r' : Request} (hscope : r.scope = r'.scope)
    (hhash : r.command.requestHash = r'.command.requestHash) :
    container.prepare r = container.prepare r' := by
  obtain ⟨hworkspace, hrest⟩ := Prod.mk.inj hscope
  obtain ⟨hoperation, hkey⟩ := Prod.mk.inj hrest
  unfold Container.prepare Container.checkSession
  rw [hhash, hkey, hworkspace]
  rcases Command.cases_of_operation hoperation with ⟨_, _, _, h, h'⟩ | ⟨_, _, _, _, _, h, h'⟩
    | ⟨_, _, _, _, _, h, h'⟩
  · rw [h, h']
  · rw [h, h']
  · rw [h, h']

theorem prepare_hash {r : Request} {requestHash : Hash}
    (h : container.prepare r = .ok requestHash) : r.command.requestHash = .ok requestHash := by
  obtain ⟨_, -, h⟩ := Except.bind_eq_ok.mp h
  obtain ⟨hash, hhash, h⟩ := Except.bind_eq_ok.mp h
  split_ifs at h
  obtain rfl := Except.ok.inj h
  cases hr : r.command.requestHash with
  | error e =>
    rw [hr] at hhash
    cases hhash
  | ok x =>
    rw [hr] at hhash
    obtain rfl := Except.ok.inj hhash
    rfl

/-- A request that is refused has another hash than the one that was performed. -/
theorem follows_refused {p : Finished} {r : Request} {e : ApiError}
    (hserved : ∀ response, p.outcome = .performed response →
      Served container s.records p response) (h : container.prepare r = .error e) :
    Follows p ⟨r, .failed e⟩ := by
  intro response hp hscope
  obtain ⟨requestHash, status, body, hprepare, -, -⟩ := hserved response hp
  constructor
  · intro hsame
    rw [prepare_congr hscope hsame, hprepare] at h
    cases h
  · intro _
    exact Or.inr ⟨e, rfl⟩

/-- The record answers a later request. -/
theorem follows_answer {p : Finished} {record : IdempotencyRecord}
    (hserved : ∀ response, p.outcome = .performed response →
      Served container s.records p response)
    (hprepared : container.prepare t.request = .ok t.requestHash)
    (hrecord : s.records.lookup t.request.scope = some record) :
    Follows p ⟨t.request, record.answer t.requestHash⟩ := by
  intro response hp hscope
  obtain ⟨requestHash, status, body, hprepare, rfl, hlookup⟩ := hserved response hp
  have hscope : t.request.scope = p.request.scope := hscope
  rw [hscope, hlookup] at hrecord
  obtain rfl := Option.some.inj hrecord
  have hhash : t.request.command.requestHash = .ok t.requestHash := prepare_hash hprepared
  have hhash' : p.request.command.requestHash = .ok requestHash := prepare_hash hprepare
  constructor
  · intro hsame
    have hsame : t.request.command.requestHash = p.request.command.requestHash := hsame
    rw [hhash, hhash'] at hsame
    obtain rfl := Except.ok.inj hsame
    exact Or.inr (if_neg (by simp))
  · intro hother
    have hother : t.request.command.requestHash ≠ p.request.command.requestHash := hother
    rw [hhash, hhash'] at hother
    have hne : requestHash ≠ t.requestHash := fun h => hother (congrArg _ h.symm)
    exact Or.inr ⟨_, if_pos hne⟩

/-- While a key has no record, no request with this key was performed. -/
theorem follows_unused {p q : Finished} {records : List (Scope × IdempotencyRecord)}
    (hserved : ∀ response, p.outcome = .performed response → Served container records p response)
    (hnone : records.lookup q.request.scope = none) : Follows p q := by
  intro response hp hscope
  obtain ⟨_, _, _, -, -, hlookup⟩ := hserved response hp
  rw [hscope, hlookup] at hnone
  cases hnone

theorem follows_aborted (p : Finished) (r : Request) : Follows p ⟨r, .aborted⟩ := by
  intro response _ _
  constructor
  · intro _
    exact Or.inl rfl
  · intro _
    exact Or.inl rfl

variable {reasoning : ReasoningState} {records : List (Scope × IdempotencyRecord)}
  {log : List Finished}

theorem pairwise_concat {R : Finished → Finished → Prop} {q : Finished} (h : log.Pairwise R)
    (hq : ∀ p ∈ log, R p q) : (log ++ [q]).Pairwise R :=
  List.pairwise_append.mpr ⟨h, List.pairwise_singleton _ _, by simpa using hq⟩

theorem lookup_concat_of_ne {scope scope' : Scope} (h : scope ≠ scope')
    (record : IdempotencyRecord) :
    (records ++ [(scope', record)]).lookup scope = records.lookup scope := by
  rw [List.lookup_append, List.lookup_cons, beq_eq_false_iff_ne.mpr h]
  exact Option.or_none

/-- A request that ends without an effect. -/
theorem History.concat (h : History container reasoning records log) {q : Finished}
    (hfollows : ∀ p ∈ log, Follows p q) (hnot : ∀ response, q.outcome ≠ .performed response) :
    History container reasoning records (log ++ [q]) where
  served f hf response hresponse := by
    rcases List.mem_append.mp hf with hf | hf
    · exact h.served f hf response hresponse
    · obtain rfl := List.mem_singleton.mp hf
      exact absurd hresponse (hnot response)
  recorded scope record hrecord := by
    obtain ⟨f, hf, hscope⟩ := h.recorded scope record hrecord
    exact ⟨f, List.mem_append_left _ hf, hscope⟩
  retired f hf response id hresponse := by
    rcases List.mem_append.mp hf with hf | hf
    · exact h.retired f hf response id hresponse
    · obtain rfl := List.mem_singleton.mp hf
      exact absurd hresponse (hnot response)
  follows := pairwise_concat h.follows hfollows
  excludes := pairwise_concat h.excludes fun _ _ _ response' _ _ hq => absurd hq (hnot response')

/-- The request with this key that has its effect. -/
theorem History.perform (h : History container reasoning records log)
    (hprepared : container.prepare t.request = .ok t.requestHash)
    (hnone : records.lookup t.request.scope = none) (status : ℕ) (body : Json)
    {reasoning' : ReasoningState}
    (hretires : Retires t.request.command.target? reasoning reasoning') :
    History container reasoning' (records ++ [(t.request.scope, ⟨t.requestHash, status, body⟩)])
      (log ++ [⟨t.request, .performed (respond status body)⟩]) where
  served f hf response hresponse := by
    rcases List.mem_append.mp hf with hf | hf
    · obtain ⟨requestHash, status', body', hprepare, hrespond, hlookup⟩ :=
        h.served f hf response hresponse
      refine ⟨requestHash, status', body', hprepare, hrespond, ?_⟩
      rw [List.lookup_append, hlookup]
      rfl
    · obtain rfl := List.mem_singleton.mp hf
      cases hresponse
      refine ⟨t.requestHash, status, body, hprepared, rfl, ?_⟩
      rw [List.lookup_append, hnone]
      simp
  recorded scope record hrecord := by
    by_cases hscope : scope = t.request.scope
    · exact ⟨_, List.mem_append_right _ (List.mem_singleton_self _), hscope.symm, _, rfl⟩
    · rw [lookup_concat_of_ne hscope] at hrecord
      obtain ⟨f, hf, hperformed⟩ := h.recorded scope record hrecord
      exact ⟨f, List.mem_append_left _ hf, hperformed⟩
  retired f hf response id hresponse htarget := by
    rcases List.mem_append.mp hf with hf | hf
    · exact hretires.kept id (h.retired f hf response id hresponse htarget)
    · obtain rfl := List.mem_singleton.mp hf
      exact hretires.now id htarget
  follows := pairwise_concat h.follows fun p hp => follows_unused (h.served p hp) hnone
  excludes := by
    refine pairwise_concat h.excludes fun p hp => ?_
    intro response response' id hp' _ htarget htarget'
    exact hretires.before id htarget' (h.retired p hp response id hp' htarget)

/-- Another transaction that has its lock holds another one. -/
theorem Open.scope_ne {j : ℕ} {u : Txn} (h : Open container s i t) (hu : Open container s j u)
    (hne : i ≠ j) (hphase : t.phase ≠ .begun) (huphase : u.phase ≠ .begun) :
    u.request.scope ≠ t.request.scope := by
  intro hscope
  have hlocked := h.locked hphase
  rw [← hscope, hu.locked huphase, Option.some.injEq] at hlocked
  exact hne hlocked.symm

/-- The end of one transaction leaves the others open. -/
theorem Open.finish {j : ℕ} {u : Txn} (h : Open container s j u) (hne : j ≠ i) (outcome : Outcome) :
    Open container (s.finish i t outcome) j u where
  prepared := h.prepared
  locked hphase := by
    have hlocked := h.locked hphase
    show (if s.locks u.request.scope = some i then none else s.locks u.request.scope) = some j
    rw [hlocked, if_neg (by simpa using hne)]
  unused := h.unused
  held := h.held

theorem running_finish {j : ℕ} {u : Txn} (t : Txn) (outcome : Outcome)
    (h : (s.finish i t outcome).running j = some u) : j ≠ i ∧ s.running j = some u := by
  have h : Function.update s.running i none j = some u := h
  by_cases hj : j = i
  · subst hj
    simp at h
  · exact ⟨hj, by rwa [Function.update_of_ne hj] at h⟩

theorem Sound.finish (h : Sound container s) {outcome : Outcome}
    (hfollows : ∀ p ∈ s.log, Follows p ⟨t.request, outcome⟩)
    (hnot : ∀ response, outcome ≠ .performed response) :
    Sound container (s.finish i t outcome) where
  opened j u hu := by
    obtain ⟨hne, hu⟩ := running_finish t outcome hu
    exact (h.opened j u hu).finish hne outcome
  history := h.history.concat hfollows hnot

theorem update_eq_some {running : ℕ → Option Txn} {j : ℕ} {u : Txn}
    (h : Function.update running i (some t) j = some u) :
    j = i ∧ u = t ∨ j ≠ i ∧ running j = some u := by
  by_cases hj : j = i
  · subst hj
    rw [Function.update_self, Option.some.injEq] at h
    exact Or.inl ⟨rfl, h.symm⟩
  · rw [Function.update_of_ne hj] at h
    exact Or.inr ⟨hj, h⟩

theorem Sound.change (h : Sound container s) {s' : System} (hchange : Change container s s') :
    Sound container s' := by
  cases hchange with
  | stays => exact h
  | refuses r e hrefused =>
    refine ⟨fun j u hu => ?_, ?_⟩
    · exact ⟨(h.opened j u hu).prepared, (h.opened j u hu).locked, (h.opened j u hu).unused,
        (h.opened j u hu).held⟩
    · exact h.history.concat (fun p hp => follows_refused (h.history.served p hp) hrefused)
        (by simp)
  | begins i r requestHash hfree hprepared =>
    refine ⟨fun j u hu => ?_, h.history⟩
    rcases update_eq_some hu with ⟨rfl, rfl⟩ | ⟨-, hu⟩
    · exact ⟨hprepared, by simp, by simp, by simp⟩
    · exact ⟨(h.opened j u hu).prepared, (h.opened j u hu).locked, (h.opened j u hu).unused,
        (h.opened j u hu).held⟩
  | acquires i t hi hlock hrecord =>
    refine ⟨fun j u hu => ?_, h.history⟩
    rcases update_eq_some hu with ⟨rfl, rfl⟩ | ⟨-, hu⟩
    · exact ⟨(h.opened j t hi).prepared, fun _ => Function.update_self _ _ _, fun _ => hrecord,
        by simp⟩
    · refine ⟨(h.opened j u hu).prepared, fun hphase => ?_, (h.opened j u hu).unused,
        (h.opened j u hu).held⟩
      have hlocked := (h.opened j u hu).locked hphase
      have hscope : u.request.scope ≠ t.request.scope := by
        intro hscope
        rw [hscope, hlock] at hlocked
        cases hlocked
      exact (Function.update_of_ne hscope _ _).trans hlocked
  | answers i t hi record hrecord =>
    apply h.finish
    · intro p hp
      exact follows_answer (h.history.served p hp) (h.opened i t hi).prepared hrecord
    · intro response hresponse
      unfold IdempotencyRecord.answer at hresponse
      split_ifs at hresponse
  | advances i t hi hphase phase hnext hheld rowLocks =>
    refine ⟨fun j u hu => ?_, h.history⟩
    rcases update_eq_some hu with ⟨rfl, rfl⟩ | ⟨-, hu⟩
    · have hopen := h.opened j t hi
      exact ⟨hopen.prepared, fun _ => hopen.locked hphase, fun _ => hopen.unused hphase, hheld⟩
    · exact ⟨(h.opened j u hu).prepared, (h.opened j u hu).locked, (h.opened j u hu).unused,
        (h.opened j u hu).held⟩
  | fails i t hi hphase e =>
    apply h.finish
    · intro p hp
      exact follows_unused (h.history.served p hp) ((h.opened i t hi).unused hphase)
    · simp
  | aborts i t hi => exact h.finish (fun p _ => follows_aborted p t.request) (by simp)
  | performs i t hi hphase ch action haction status body reasoning hrun hrecord =>
    have hopen := h.opened i t hi
    refine ⟨fun j u hu => ?_, ?_⟩
    · obtain ⟨hne, hu⟩ := running_finish t (.performed (respond status body)) hu
      have hother := (h.opened j u hu).finish (t := t) hne (.performed (respond status body))
      refine ⟨hother.prepared, hother.locked, fun huphase => ?_, hother.held⟩
      have hscope := hopen.scope_ne (h.opened j u hu) hne.symm hphase huphase
      exact (lookup_concat_of_ne hscope _).trans ((h.opened j u hu).unused huphase)
    · exact h.history.perform hopen.prepared hrecord status body
        (retires_action haction hopen.held hrun)

end Invariant

/-! ### Runs -/

/-- Before any request. -/
def start (reasoning : ReasoningState) : System where
  reasoning
  records := []
  running := fun _ => none
  locks := fun _ => none
  rowLocks := fun _ => none
  log := []

/-- The steps one after the other. -/
def run (container : Container) (moves : List Move) (s : System) : System :=
  after (fun m s => ((), m.exec container s)) s moves

theorem sound_start (container : Container) (reasoning : ReasoningState) :
    Sound container (start reasoning) := by
  constructor
  · intro i t ht
    cases ht
  · exact ⟨by simp [start], by simp [start], by simp [start], .nil, .nil⟩

theorem sound_run (container : Container) (reasoning : ReasoningState) (moves : List Move) :
    Sound container (run container moves (start reasoning)) :=
  after_invariant (P := fun _ _ => True) (fun s m h _ => h.change (change_exec container s m))
    (sound_start container reasoning) (along_of_forall (fun _ _ => trivial) _ _)

/-- What the keys and the versions promise of a state that was reached. -/
structure WritesOnce (container : Container) (s : System) : Prop where
  once : s.log.Pairwise fun p q => ∀ response response', p.outcome = .performed response →
    q.outcome = .performed response' → q.request.scope ≠ p.request.scope
  later : s.log.Pairwise Follows
  silent : ∀ m : Move, ((m.exec container s).reasoning = s.reasoning
      ∧ (m.exec container s).records = s.records)
    ∨ ∃ r response, (m.exec container s).log = s.log ++ [⟨r, .performed response⟩]
  unused : ∀ scope, (∀ f ∈ s.log, ∀ response, f.outcome = .performed response →
    f.request.scope ≠ scope) → s.records.lookup scope = none
  versions : s.log.Pairwise Excludes
  commands : ∀ (c c' : Command) (x : Hash), c.operation = c'.operation → c.requestHash = .ok x →
    c'.requestHash = .ok x → c.Same c' ∨ Collide (utf8 c.preimage.canonical)
      (utf8 c'.preimage.canonical)

/-- A step without an effect leaves the tables as they are. -/
theorem silent_change {container : Container} {s s' : System} (h : Change container s s') :
    (s'.reasoning = s.reasoning ∧ s'.records = s.records)
      ∨ ∃ r response, s'.log = s.log ++ [⟨r, .performed response⟩] := by
  cases h with
  | performs i t hi hphase ch action haction status body reasoning hrun hrecord =>
    exact Or.inr ⟨t.request, respond status body, rfl⟩
  | stays | refuses | begins | acquires | answers | advances | fails | aborts =>
    exact Or.inl ⟨rfl, rfl⟩

theorem once_of_follows {p q : Finished} (h : Follows p q) {response response' : Response}
    (hp : p.outcome = .performed response) (hq : q.outcome = .performed response') :
    q.request.scope ≠ p.request.scope := by
  intro hscope
  have hanswered := h response hp hscope
  by_cases hsame : q.request.command.requestHash = p.request.command.requestHash
  · rcases hanswered.same hsame with hq' | hq'
    · rw [hq] at hq'
      cases hq'
    · rw [hq] at hq'
      cases hq'
  · rcases hanswered.other hsame with hq' | ⟨e, hq'⟩
    · rw [hq] at hq'
      cases hq'
    · rw [hq] at hq'
      cases hq'

/-- **Once per key and once per version.**  Of the requests with one workspace, operation and key at
    most one has an effect, and the later ones get its response, or an error when their hash is
    another.  A request that fails, is answered or is rolled back changes nothing.  A key is unused
    until a request has its effect.  One revision or withdrawal of a version has an effect. -/
theorem writes_once (container : Container) (reasoning : ReasoningState) (moves : List Move) :
    WritesOnce container (run container moves (start reasoning)) := by
  have hsound := sound_run container reasoning moves
  constructor
  · exact hsound.history.follows.imp fun h _ _ hp hq => once_of_follows h hp hq
  · exact hsound.history.follows
  · intro m
    exact silent_change (change_exec container _ m)
  · intro scope hnone
    rw [← Option.not_isSome_iff_eq_none]
    intro hsome
    obtain ⟨record, hrecord⟩ := Option.isSome_iff_exists.mp hsome
    obtain ⟨f, hf, hscope, response, hresponse⟩ := hsound.history.recorded scope record hrecord
    exact hnone f hf response hresponse hscope
  · exact hsound.history.excludes
  · intro c c' x hoperation h h'
    exact Command.same_of_hash hoperation h h'

end Agora.Api
