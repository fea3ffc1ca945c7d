import Agora.Lib.Except
import Agora.Lib.Runs
import Mathlib.Data.List.Basic
import Mathlib.Tactic.Cases

namespace Agora

/-!
# Worker pools

A few workers run the jobs of a queue.  Their steps may come in any order; when the run of a job fails
the pool is cancelled.  Jobs are started in the order of the queue and each once (`Sound.queue`), a pool
that has ended without a failure has the outcomes of all its jobs in their order
(`Sound.result_eq_ok_iff`), and until it has ended it can go on (`exists_enabled`), though not for ever
(`load_after`).
-/

/-- Where a worker is: its task has not run yet, or awaits the run of a job, or is done. -/
inductive Worker (κ : Type) where
  | created
  | running (job : κ) (index : ℕ)
  | ended

namespace Worker

variable {κ : Type}

def isEnded : Worker κ → Bool
  | ended => true
  | _ => false

def isCreated : Worker κ → Bool
  | created => true
  | _ => false

def isRunning : Worker κ → Bool
  | running _ _ => true
  | _ => false

theorem isCreated_iff {w : Worker κ} : w.isCreated = true ↔ w = created := by
  cases w <;> simp [isCreated]

theorem isRunning_iff {w : Worker κ} : w.isRunning = true ↔ ∃ job index, w = running job index := by
  cases w <;> simp [isRunning]

end Worker

/-- The queue of jobs with their positions, the jobs that have been started, the outcomes by position,
    the workers, the failure that was reported first, and whether the workers have been cancelled. -/
structure Pool (κ ω ε : Type) where
  pending : List (κ × ℕ)
  started : List (κ × ℕ) := []
  outcomes : List (Option ω)
  workers : List (Worker κ)
  failure : Option ε := none
  cancelling : Bool := false

/-- What can happen next: a worker begins, the run of its job ends, or it is interrupted; the workers are
    cancelled; or the pool is aborted from outside. -/
inductive PoolStep (ε : Type) where
  | start (worker : ℕ)
  | finish (worker : ℕ)
  | interrupt (worker : ℕ)
  | cancel
  | abort (e : ε)

namespace Pool

variable {κ ω ε : Type}

/-! ### Steps -/

/-- A pool with its jobs, none of which has been started. -/
def initial (limit : ℕ) (jobs : List κ) : Pool κ ω ε where
  pending := jobs.zipIdx
  outcomes := List.replicate jobs.length none
  workers := List.replicate (min limit jobs.length) .created

/-- A worker takes the next job, or is done when there is none. -/
def take (worker : ℕ) (p : Pool κ ω ε) : Pool κ ω ε :=
  match p.pending with
  | [] => { p with workers := p.workers.set worker .ended }
  | (job, index) :: rest =>
    { p with
      pending := rest
      started := p.started ++ [(job, index)]
      workers := p.workers.set worker (.running job index) }

def record (index : ℕ) (outcome : ω) (p : Pool κ ω ε) : Pool κ ω ε :=
  { p with outcomes := p.outcomes.set index (some outcome) }

/-- The first failure is kept. -/
def fail (e : ε) (p : Pool κ ω ε) : Pool κ ω ε := { p with failure := p.failure.or (some e) }

def stop (worker : ℕ) (p : Pool κ ω ε) : Pool κ ω ε :=
  { p with workers := p.workers.set worker .ended }

/-- A worker whose task has not run takes its first job. -/
def start (worker : ℕ) (p : Pool κ ω ε) : Pool κ ω ε :=
  match p.workers[worker]? with
  | some .created => p.take worker
  | _ => p

/-- The run of a job ends as `run` says. -/
def finish (run : κ → ℕ → Except ε ω) (worker : ℕ) (p : Pool κ ω ε) : Pool κ ω ε :=
  match p.workers[worker]? with
  | some (.running job index) =>
    match run job index with
    | .ok outcome => (p.record index outcome).take worker
    | .error e => (p.fail e).stop worker
  | _ => p

def interrupt (worker : ℕ) (p : Pool κ ω ε) : Pool κ ω ε :=
  if p.cancelling then p.stop worker else p

/-- Workers are cancelled once something has failed. -/
def cancel (p : Pool κ ω ε) : Pool κ ω ε := { p with cancelling := p.failure.isSome }

def exec (run : κ → ℕ → Except ε ω) (step : PoolStep ε) (p : Pool κ ω ε) : Unit × Pool κ ω ε :=
  ((), match step with
    | .start worker => p.start worker
    | .finish worker => p.finish run worker
    | .interrupt worker => p.interrupt worker
    | .cancel => p.cancel
    | .abort e => p.fail e)

/-- All workers are done. -/
def Ended (p : Pool κ ω ε) : Prop := ∀ worker ∈ p.workers, worker.isEnded = true

instance (p : Pool κ ω ε) : Decidable p.Ended := by
  unfold Ended
  infer_instance

/-- What a pool that has ended returns. -/
def result (incomplete : ε) (p : Pool κ ω ε) : Except ε (List ω) :=
  match p.failure with
  | some e => .error e
  | none =>
    if p.outcomes.any (·.isNone) then .error incomplete else .ok (p.outcomes.filterMap id)

variable {run : κ → ℕ → Except ε ω} {p : Pool κ ω ε} {jobs : List κ} {aborted : ε → Prop} {limit : ℕ}

@[simp] theorem take_outcomes (worker : ℕ) : (p.take worker).outcomes = p.outcomes := by
  unfold take
  split <;> rfl

@[simp] theorem take_failure (worker : ℕ) : (p.take worker).failure = p.failure := by
  unfold take
  split <;> rfl

@[simp] theorem take_cancelling (worker : ℕ) : (p.take worker).cancelling = p.cancelling := by
  unfold take
  split <;> rfl

@[simp] theorem take_queue (worker : ℕ) :
    (p.take worker).started ++ (p.take worker).pending = p.started ++ p.pending := by
  unfold take
  split
  · rfl
  case h_2 job index rest hpending =>
    rw [hpending, List.append_assoc]
    rfl

@[simp] theorem take_workers_length (worker : ℕ) :
    (p.take worker).workers.length = p.workers.length := by
  unfold take
  split <;> exact List.length_set

/-! ### The invariant -/

/-- What holds in every state of a pool.  As long as nothing has failed, workers are done only when the
    queue is empty, and what has been started runs or has its outcome. -/
structure Sound (run : κ → ℕ → Except ε ω) (jobs : List κ) (aborted : ε → Prop) (limit : ℕ)
    (p : Pool κ ω ε) : Prop where
  queue : p.started ++ p.pending = jobs.zipIdx
  workers : p.workers.length = min limit jobs.length
  size : p.outcomes.length = jobs.length
  outcome : ∀ index o, p.outcomes[index]? = some (some o) →
    ∃ job, jobs[index]? = some job ∧ run job index = .ok o
  running : ∀ job index, .running job index ∈ p.workers → (job, index) ∈ p.started
  failure : ∀ e, p.failure = some e → (∃ x ∈ p.started, run x.1 x.2 = .error e) ∨ aborted e
  quiet : p.failure = none → p.cancelling = false
  drained : p.failure = none → .ended ∈ p.workers → p.pending = []
  kept : p.failure = none → ∀ x ∈ p.started,
    .running x.1 x.2 ∈ p.workers ∨ ∃ o, p.outcomes[x.2]? = some (some o)

theorem sound_initial (run : κ → ℕ → Except ε ω) (jobs : List κ) (aborted : ε → Prop) (limit : ℕ) :
    Sound run jobs aborted limit (initial limit jobs) where
  queue := rfl
  workers := List.length_replicate
  size := List.length_replicate
  outcome index o h := by
    have hmem := List.mem_of_getElem? h
    cases (List.mem_replicate.mp hmem).2
  running job index h := by cases (List.mem_replicate.mp h).2
  failure e h := by cases h
  quiet _ := rfl
  drained _ h := by cases (List.mem_replicate.mp h).2
  kept _ x h := absurd h List.not_mem_nil

theorem Sound.getElem?_started (h : Sound run jobs aborted limit p) {x : κ × ℕ} (hx : x ∈ p.started) :
    jobs[x.2]? = some x.1 := by
  rw [← List.mem_zipIdx_iff_getElem?, ← h.queue]
  exact List.mem_append_left _ hx

/-- A worker that takes a job leaves no job behind. -/
theorem Sound.take (h : Sound run jobs aborted limit p) {worker : ℕ} (hworker : worker < p.workers.length)
    (hfree : ∀ job index, p.workers[worker]? = some (.running job index) → p.failure = none →
      ∃ o, p.outcomes[index]? = some (some o)) :
    Sound run jobs aborted limit (p.take worker) where
  queue := (take_queue worker).trans h.queue
  workers := (take_workers_length worker).trans h.workers
  size := by rw [take_outcomes, h.size]
  outcome := by
    rw [take_outcomes]
    exact h.outcome
  running job index hmem := by
    unfold Pool.take at hmem ⊢
    split at hmem
    · rcases List.mem_or_eq_of_mem_set hmem with hold | hnew
      · exact h.running job index hold
      · cases hnew
    · rcases List.mem_or_eq_of_mem_set hmem with hold | hnew
      · exact List.mem_append_left _ (h.running job index hold)
      · cases hnew
        exact List.mem_append_right _ (List.mem_singleton_self _)
  failure e he := by
    rw [take_failure] at he
    refine (h.failure e he).imp_left ?_
    rintro ⟨x, hx, hrun⟩
    refine ⟨x, ?_, hrun⟩
    unfold Pool.take
    split
    · exact hx
    · exact List.mem_append_left _ hx
  quiet hnone := by
    rw [take_failure] at hnone
    rw [take_cancelling]
    exact h.quiet hnone
  drained hnone hmem := by
    rw [take_failure] at hnone
    unfold Pool.take at hmem ⊢
    split at hmem
    · assumption
    case h_2 hpending =>
      rcases List.mem_or_eq_of_mem_set hmem with hold | hnew
      · rw [h.drained hnone hold] at hpending
        cases hpending
      · cases hnew
  kept hnone x hx := by
    rw [take_failure] at hnone
    rw [take_outcomes]
    -- The other workers go on; what this one has run has its outcome.
    have hother (next : Worker κ) (hx : x ∈ p.started) :
        .running x.1 x.2 ∈ p.workers.set worker next ∨ ∃ o, p.outcomes[x.2]? = some (some o) := by
      rcases h.kept hnone x hx with hrunning | hdone
      · obtain ⟨i, hi, heq⟩ := List.getElem_of_mem hrunning
        by_cases hsame : worker = i
        · subst hsame
          exact .inr (hfree x.1 x.2 (by rw [List.getElem?_eq_getElem hi, heq]) hnone)
        · refine .inl (List.mem_of_getElem? (i := i) ?_)
          rw [List.getElem?_set_ne hsame, List.getElem?_eq_getElem hi, heq]
      · exact .inr hdone
    unfold Pool.take at hx ⊢
    split at hx
    · exact hother _ hx
    case h_2 job index rest hpending =>
      rcases List.mem_append.mp hx with hold | hnew
      · exact hother _ hold
      · rw [List.mem_singleton.mp hnew]
        exact .inl (List.mem_set hworker _)

theorem Sound.record (h : Sound run jobs aborted limit p) {job : κ} {index : ℕ} {o : ω}
    (hmem : .running job index ∈ p.workers) (hrun : run job index = .ok o) :
    Sound run jobs aborted limit (p.record index o) where
  queue := h.queue
  workers := h.workers
  size := List.length_set.trans h.size
  outcome i o' ho := by
    by_cases hsame : index = i
    · subst hsame
      have hjob := h.getElem?_started (h.running job index hmem)
      have hlt : index < p.outcomes.length := by
        rw [h.size]
        exact (List.getElem?_eq_some_iff.mp hjob).1
      have hset : (p.outcomes.set index (some o))[index]? = some (some o) :=
        List.getElem?_set_self hlt
      obtain rfl := Option.some.inj (Option.some.inj (hset.symm.trans ho))
      exact ⟨job, hjob, hrun⟩
    · exact h.outcome i o' ((List.getElem?_set_ne hsame).symm.trans ho)
  running := h.running
  failure := h.failure
  quiet := h.quiet
  drained := h.drained
  kept hnone x hx := by
    refine (h.kept hnone x hx).imp_right ?_
    rintro ⟨o', ho⟩
    show ∃ o', (p.outcomes.set index (some o))[x.2]? = some (some o')
    by_cases hsame : index = x.2
    · subst hsame
      exact ⟨o, List.getElem?_set_self (List.getElem?_eq_some_iff.mp ho).1⟩
    · exact ⟨o', (List.getElem?_set_ne hsame).trans ho⟩

theorem record_self {index : ℕ} (o : ω) (hindex : index < p.outcomes.length) :
    (p.record index o).outcomes[index]? = some (some o) :=
  List.getElem?_set_self hindex

/-- Once something has failed, nothing is promised of what is left. -/
theorem Sound.fail (h : Sound run jobs aborted limit p) {e : ε}
    (he : (∃ x ∈ p.started, run x.1 x.2 = .error e) ∨ aborted e) :
    Sound run jobs aborted limit (p.fail e) := by
  have hsome : (p.fail e).failure ≠ none := by
    unfold Pool.fail
    simp
  refine ⟨h.queue, h.workers, h.size, h.outcome, h.running, fun e' he' => ?_,
    fun hnone => absurd hnone hsome, fun hnone => absurd hnone hsome, fun hnone => absurd hnone hsome⟩
  rcases Option.or_eq_some_iff.mp he' with hold | ⟨-, hnew⟩
  · exact h.failure e' hold
  · cases hnew
    exact he

theorem Sound.stop (h : Sound run jobs aborted limit p) (worker : ℕ) (hfailed : p.failure ≠ none) :
    Sound run jobs aborted limit (p.stop worker) := by
  refine ⟨h.queue, List.length_set.trans h.workers, h.size, h.outcome, fun job index hmem => ?_,
    h.failure, fun hnone => absurd hnone hfailed, fun hnone => absurd hnone hfailed,
    fun hnone => absurd hnone hfailed⟩
  rcases List.mem_or_eq_of_mem_set hmem with hold | hnew
  · exact h.running job index hold
  · cases hnew

/-- **Step.**  Whatever happens next, the pool is sound. -/
theorem Sound.exec (h : Sound run jobs aborted limit p) (step : PoolStep ε)
    (hstep : ∀ e, step = .abort e → aborted e) :
    Sound run jobs aborted limit (exec run step p).2 := by
  cases step with
  | start worker =>
    show Sound run jobs aborted limit (p.start worker)
    unfold Pool.start
    split
    case h_1 hcreated =>
      refine h.take (List.getElem?_eq_some_iff.mp hcreated).1 fun job index hrunning => ?_
      rw [hcreated] at hrunning
      cases hrunning
    · exact h
  | finish worker =>
    show Sound run jobs aborted limit (p.finish run worker)
    unfold Pool.finish
    split
    case h_1 job index hrunning =>
      have hmem := List.mem_of_getElem? hrunning
      have hstarted := h.running job index hmem
      split
      case h_1 o hrun =>
        refine (h.record hmem hrun).take (List.getElem?_eq_some_iff.mp hrunning).1
          fun job' index' hrunning' _ => ?_
        obtain ⟨rfl, rfl⟩ := Worker.running.inj (Option.some.inj (hrunning.symm.trans hrunning'))
        refine ⟨o, record_self o ?_⟩
        rw [h.size]
        exact (List.getElem?_eq_some_iff.mp (h.getElem?_started hstarted)).1
      case h_2 e hrun =>
        refine (h.fail (.inl ⟨_, hstarted, hrun⟩)).stop worker ?_
        unfold Pool.fail
        simp
    · exact h
  | interrupt worker =>
    show Sound run jobs aborted limit (p.interrupt worker)
    unfold Pool.interrupt
    split_ifs with hcancelling
    · refine h.stop worker fun hnone => ?_
      rw [h.quiet hnone] at hcancelling
      cases hcancelling
    · exact h
  | cancel =>
    exact ⟨h.queue, h.workers, h.size, h.outcome, h.running, h.failure,
      fun hnone => Option.isSome_eq_false_iff.mpr (Option.isNone_iff_eq_none.mpr hnone), h.drained, h.kept⟩
  | abort e => exact h.fail (.inr (hstep e rfl))

/-- **Runs.**  A pool is sound in every state of every run. -/
theorem sound_after (run : κ → ℕ → Except ε ω) (jobs : List κ) (limit : ℕ) (steps : List (PoolStep ε)) :
    Sound run jobs (fun e => .abort e ∈ steps) limit
      (after (Pool.exec run) (initial limit jobs) steps) := by
  have halong : Along (Pool.exec run) (fun _ step => step ∈ steps)
      (initial limit jobs : Pool κ ω ε) steps := by
    refine along_iff_forall.mpr fun earlier step later heq => ?_
    rw [heq]
    simp
  refine after_invariant (P := fun _ step => step ∈ steps) (fun _ step h hstep => ?_)
    (sound_initial run jobs _ limit) halong
  exact h.exec step fun e he => by rwa [← he]

/-! ### The result -/

/-- A pool that has ended without a failure has started all jobs. -/
theorem Sound.pending_of_ended (h : Sound run jobs aborted limit p) (hlimit : 1 ≤ limit)
    (hended : p.Ended) (hnone : p.failure = none) : p.pending = [] := by
  by_cases hjobs : jobs = []
  · have hqueue := h.queue
    rw [hjobs] at hqueue
    exact (List.append_eq_nil_iff.mp hqueue).2
  · have hlength := List.length_pos_of_ne_nil hjobs
    have hworkers : p.workers ≠ [] := by
      apply List.ne_nil_of_length_pos
      rw [h.workers]
      omega
    obtain ⟨worker, hmem⟩ := List.exists_mem_of_ne_nil p.workers hworkers
    have hworker := hended worker hmem
    cases worker with
    | ended => exact h.drained hnone hmem
    | created | running job index => cases hworker

theorem Sound.exists_outcome (h : Sound run jobs aborted limit p) (hlimit : 1 ≤ limit)
    (hended : p.Ended) (hnone : p.failure = none) {x : κ × ℕ} (hx : x ∈ jobs.zipIdx) :
    ∃ o, run x.1 x.2 = .ok o ∧ p.outcomes[x.2]? = some (some o) := by
  have hstarted : x ∈ p.started := by
    rwa [← h.queue, h.pending_of_ended hlimit hended hnone, List.append_nil] at hx
  rcases h.kept hnone x hstarted with hrunning | ⟨o, ho⟩
  · cases hended _ hrunning
  · obtain ⟨job, hjob, hrun⟩ := h.outcome x.2 o ho
    obtain rfl := Option.some.inj (hjob.symm.trans (h.getElem?_started hstarted))
    exact ⟨o, hrun, ho⟩

/-- Then it has the outcomes of all jobs, in their order. -/
theorem Sound.outcomes_of_ended (h : Sound run jobs aborted limit p) (hlimit : 1 ≤ limit)
    (hended : p.Ended) (hnone : p.failure = none) :
    ∃ os, jobs.zipIdx.mapM (fun x => run x.1 x.2) = .ok os ∧ p.outcomes = os.map some := by
  obtain ⟨os, hos⟩ := Except.exists_mapM_ok fun x hx =>
    (h.exists_outcome hlimit hended hnone hx).imp fun o ho => ho.1
  have hall := Except.mapM_eq_ok_iff.mp hos
  refine ⟨os, hos, List.ext_getElem? fun index => ?_⟩
  have hlength : os.length = jobs.length := by rw [← hall.length_eq, List.length_zipIdx]
  by_cases hindex : index < jobs.length
  · have hx : (jobs[index], index) ∈ jobs.zipIdx := List.mem_zipIdx_iff_getElem?.mpr (by simp)
    obtain ⟨o, hrun, ho⟩ := h.exists_outcome hlimit hended hnone hx
    have hrun' := List.forall₂_iff_get.mp hall |>.2 index (by simpa using hindex) (by omega)
    simp only [List.get_eq_getElem, List.getElem_zipIdx, Nat.zero_add] at hrun'
    rw [ho, List.getElem?_map, List.getElem?_eq_getElem (by omega)]
    exact congrArg (some ∘ some) (Except.ok.inj (hrun.symm.trans hrun'))
  · rw [List.getElem?_eq_none (by rw [h.size]; omega), List.getElem?_eq_none]
    rw [List.length_map]
    omega

/-- **Result.**  A pool that has ended and has not been aborted returns the outcomes of its jobs, in the
    order of the jobs, exactly when the run of each has one. -/
theorem Sound.result_eq_ok_iff (h : Sound run jobs aborted limit p) (haborted : ∀ e, ¬ aborted e)
    (hlimit : 1 ≤ limit) (hended : p.Ended) (incomplete : ε) (os : List ω) :
    p.result incomplete = .ok os ↔ jobs.zipIdx.mapM (fun x => run x.1 x.2) = .ok os := by
  unfold result
  cases hfailure : p.failure with
  | some e =>
    refine iff_of_false nofun fun hos => ?_
    rcases h.failure e hfailure with ⟨x, hx, hrun⟩ | hnever
    · have hmem : x ∈ jobs.zipIdx := by
        rw [← h.queue]
        exact List.mem_append_left _ hx
      obtain ⟨o, ho, -⟩ := Except.exists_mem_of_mapM hos hmem
      rw [hrun] at ho
      cases ho
    · exact absurd hnever (haborted e)
  | none =>
    obtain ⟨os', hos', houtcomes⟩ := h.outcomes_of_ended hlimit hended hfailure
    simp [houtcomes, hos']

/-- A pool that has ended and raises has been aborted, or a job that it has started has failed. -/
theorem Sound.of_result_eq_error (h : Sound run jobs aborted limit p) (hlimit : 1 ≤ limit)
    (hended : p.Ended) {incomplete e : ε} (hresult : p.result incomplete = .error e) :
    (∃ x ∈ p.started, run x.1 x.2 = .error e) ∨ aborted e := by
  unfold result at hresult
  cases hfailure : p.failure with
  | some e' =>
    rw [hfailure] at hresult
    cases hresult
    exact h.failure _ hfailure
  | none =>
    obtain ⟨os, -, houtcomes⟩ := h.outcomes_of_ended hlimit hended hfailure
    rw [hfailure, houtcomes] at hresult
    simp at hresult

/-! ### Progress -/

/-- A worker can take the step, whatever the outcome. -/
def enabled (p : Pool κ ω ε) : PoolStep ε → Bool
  | .start worker => p.workers[worker]?.any (·.isCreated)
  | .finish worker => p.workers[worker]?.any (·.isRunning)
  | .interrupt worker => p.cancelling && p.workers[worker]?.any (!·.isEnded)
  | .cancel | .abort _ => false

theorem enabled_start {worker : ℕ} :
    p.enabled (.start worker) = true ↔ p.workers[worker]? = some .created := by
  simp [enabled, Option.any_eq_true, Worker.isCreated_iff]

theorem enabled_finish {worker : ℕ} : p.enabled (.finish worker) = true
    ↔ ∃ job index, p.workers[worker]? = some (.running job index) := by
  simp only [enabled, Option.any_eq_true, Worker.isRunning_iff]
  constructor
  · rintro ⟨w, hw, job, index, rfl⟩
    exact ⟨job, index, hw⟩
  · rintro ⟨job, index, hw⟩
    exact ⟨_, hw, job, index, rfl⟩

/-- A pool that has not ended can go on. -/
theorem exists_enabled (hended : ¬ p.Ended) :
    ∃ worker, p.enabled (.start worker) = true ∨ p.enabled (.finish worker) = true := by
  unfold Ended at hended
  push Not at hended
  obtain ⟨w, hmem, hw⟩ := hended
  obtain ⟨worker, hworker⟩ := List.getElem?_of_mem hmem
  refine ⟨worker, ?_⟩
  cases w with
  | created => exact .inl (enabled_start.mpr hworker)
  | running job index => exact .inr (enabled_finish.mpr ⟨job, index, hworker⟩)
  | ended => exact absurd rfl hw

/-- The workers that are not done. -/
def active (p : Pool κ ω ε) : ℕ := p.workers.countP (!·.isEnded)

/-- The jobs that are left, and the workers that are not done. -/
def load (p : Pool κ ω ε) : ℕ := p.pending.length + p.active

theorem countP_set {workers : List (Worker κ)} {worker : ℕ} {w : Worker κ} (next : Worker κ)
    (hworker : workers[worker]? = some w) (hw : w.isEnded = false) :
    (workers.set worker next).countP (!·.isEnded) + 1
      = workers.countP (!·.isEnded) + if next.isEnded then 0 else 1 := by
  obtain ⟨hlt, rfl⟩ := List.getElem?_eq_some_iff.mp hworker
  have hpos : 0 < workers.countP (!·.isEnded) :=
    List.countP_pos_iff.mpr ⟨_, List.getElem_mem hlt, by simp [hw]⟩
  rw [List.countP_set hlt]
  cases next.isEnded <;> simp [hw] <;> omega

theorem load_stop {worker : ℕ} {w : Worker κ} (hworker : p.workers[worker]? = some w)
    (hw : w.isEnded = false) : (p.stop worker).load + 1 = p.load :=
  congrArg (p.pending.length + ·) (countP_set .ended hworker hw)

theorem load_take {worker : ℕ} {w : Worker κ} (hworker : p.workers[worker]? = some w)
    (hw : w.isEnded = false) : (p.take worker).load + 1 = p.load := by
  unfold take
  split
  · exact load_stop hworker hw
  case h_2 job index rest hpending =>
    have hcount : (p.workers.set worker (.running job index)).countP (!·.isEnded) + 1
        = p.workers.countP (!·.isEnded) + 1 := countP_set _ hworker hw
    unfold load active
    rw [hpending, List.length_cons, Nat.add_right_cancel hcount]
    exact Nat.add_right_comm ..

/-- A step that a worker can take lightens the load by one. -/
theorem load_exec_of_enabled {step : PoolStep ε} (h : p.enabled step = true) :
    (exec run step p).2.load + 1 = p.load := by
  cases step with
  | start worker =>
    have hcreated := enabled_start.mp h
    show (p.start worker).load + 1 = _
    simp only [start, hcreated]
    exact load_take hcreated rfl
  | finish worker =>
    obtain ⟨job, index, hrunning⟩ := enabled_finish.mp h
    show (p.finish run worker).load + 1 = _
    simp only [finish, hrunning]
    cases run job index with
    | ok outcome => exact load_take (p := p.record index outcome) hrunning rfl
    | error e => exact load_stop (p := p.fail e) hrunning rfl
  | interrupt worker =>
    obtain ⟨hcancelling, hactive⟩ := Bool.and_eq_true_iff.mp h
    obtain ⟨w, hworker, hw⟩ := (Option.any_eq_true _ _).mp hactive
    show (p.interrupt worker).load + 1 = _
    rw [interrupt, if_pos hcancelling]
    exact load_stop hworker (by simpa using hw)
  | cancel | abort e => cases h

/-- No other step changes it. -/
theorem load_exec_of_not_enabled {step : PoolStep ε} (h : ¬ p.enabled step = true) :
    (exec run step p).2.load = p.load := by
  cases step with
  | start worker =>
    show (p.start worker).load = _
    unfold start
    split
    · exact absurd (enabled_start.mpr ‹_›) h
    · rfl
  | finish worker =>
    show (p.finish run worker).load = _
    unfold finish
    split
    · exact absurd (enabled_finish.mpr ⟨_, _, ‹_›⟩) h
    · rfl
  | interrupt worker =>
    show (p.interrupt worker).load = _
    unfold interrupt
    split_ifs with hcancelling
    · -- The worker has ended, or is no worker.
      suffices hsame : p.workers.set worker .ended = p.workers by
        unfold stop load active
        simp only [hsame]
      cases hworker : p.workers[worker]? with
      | none => exact List.set_eq_of_length_le (List.getElem?_eq_none_iff.mp hworker)
      | some w =>
        obtain ⟨hlt, heq⟩ := List.getElem?_eq_some_iff.mp hworker
        cases w with
        | ended => rw [← heq, List.set_getElem_self]
        | created | running job index =>
          exact absurd (by simp [enabled, hcancelling, hworker, Worker.isEnded]) h
    · rfl
  | cancel | abort e => rfl

/-- The number of steps of a run that workers have taken. -/
def moves (run : κ → ℕ → Except ε ω) : Pool κ ω ε → List (PoolStep ε) → ℕ
  | _, [] => 0
  | p, step :: steps => (if p.enabled step then 1 else 0) + moves run (exec run step p).2 steps

/-- **Progress.**  What the workers have done and what is left to do add up. -/
theorem load_after (run : κ → ℕ → Except ε ω) (p : Pool κ ω ε) (steps : List (PoolStep ε)) :
    (after (exec run) p steps).load + moves run p steps = p.load := by
  induction steps generalizing p with
  | nil => rfl
  | cons step steps ih =>
    rw [after_cons, moves]
    by_cases h : p.enabled step = true
    · have hstep : (exec run step p).2.load + 1 = p.load := load_exec_of_enabled h
      have hrest := ih (exec run step p).2
      rw [if_pos h]
      omega
    · rw [if_neg h, Nat.zero_add, ih, load_exec_of_not_enabled h]

theorem load_initial (limit : ℕ) (jobs : List κ) :
    (initial limit jobs : Pool κ ω ε).load = jobs.length + min limit jobs.length := by
  unfold initial load active
  simp [List.countP_replicate, Worker.isEnded]

end Pool

end Agora
