import Agora.Consensus.Ports
import Agora.Lib.Except
import Mathlib.Data.List.Perm.Basic

namespace Agora.Consensus

/-!
# The shared feasibility gate

`feasibilityGate` splits the alternatives by their verdict before any formula runs.  What it
returns is read off the context once, here:

* `mem_rankable_iff` / `mem_unknown_iff` — an alternative is rankable unless its verdict is
  UNSAT, and listed as unknown when its verdict is UNKNOWN;
* `infeasible_cores` — the infeasible verdicts carry the unsat cores in alternative order;
* `allInfeasible_iff` — the gate stops the run exactly when every verdict is UNSAT.
-/

/-! ### The UNKNOWN policy -/

inductive SymbolicAssuranceAction where
  | proceed
  | block
  | defer
deriving DecidableEq, Repr

/-- `SymbolicUnknownPolicy.decide_status`, by the action it decides on. -/
def decideStatus (status : FeasibilityStatus) (reasonUnknown : Option String) :
    Py SymbolicAssuranceAction :=
  match status with
  | .sat => .ok .proceed
  | .unsat => .ok .block
  | .unknown =>
    match reasonUnknown with
    | none => .error (.valueError "UNKNOWN symbolic status requires a solver reason")
    | some reason =>
      if isBlank reason then
        .error (.valueError "UNKNOWN symbolic status requires a solver reason")
      else .ok .defer

/-- What the policy decides for a status it accepts. -/
def FeasibilityStatus.action : FeasibilityStatus → SymbolicAssuranceAction
  | .sat => .proceed
  | .unsat => .block
  | .unknown => .defer

/-- The policy never raises on a verdict: an UNKNOWN verdict has a reason. -/
theorem decideStatus_verdict (v : FeasibilityVerdict) :
    decideStatus v.status v.reasonUnknown = .ok v.status.action := by
  have hv := v.evidenceMatchesStatus
  cases hs : v.status with
  | sat => rfl
  | unsat => rfl
  | unknown =>
    simp only [hs] at hv
    obtain ⟨⟨reason, hreason, hblank⟩, -⟩ := hv
    simp [decideStatus, hreason, hblank, FeasibilityStatus.action]

/-! ### The gate -/

/-- Output of the shared feasibility gate. -/
structure FeasibilityGateResult where
  rankable : List AlternativeInput := []
  infeasible : List FeasibilityVerdict := []
  unknown : List FeasibilityVerdict := []

def FeasibilityGateResult.allInfeasible (gate : FeasibilityGateResult) : Bool :=
  gate.rankable.isEmpty

def FeasibilityGateResult.hasUnknown (gate : FeasibilityGateResult) : Bool :=
  !gate.unknown.isEmpty

/-- The gate's loop, over the `verdicts` dictionary. -/
def gateLoop (verdicts : UUID → Option FeasibilityVerdict) :
    List AlternativeInput → Py FeasibilityGateResult
  | [] => .ok {}
  | alt :: rest =>
    match verdicts alt.alternativeId with
    -- No applicable symbolic verdict: the gate has no symbolic claim to make.
    | none => do
      let gate ← gateLoop verdicts rest
      .ok { gate with rankable := alt :: gate.rankable }
    | some verdict => do
      let action ← decideStatus verdict.status verdict.reasonUnknown
      let gate ← gateLoop verdicts rest
      match action with
      | .proceed => .ok { gate with rankable := alt :: gate.rankable }
      | .block => .ok { gate with infeasible := verdict :: gate.infeasible }
      | .defer =>
        .ok { gate with unknown := verdict :: gate.unknown, rankable := alt :: gate.rankable }

/-- The shared feasibility gate. -/
def feasibilityGate (alternatives : List AlternativeInput)
    (feasibility : List FeasibilityVerdict) : Py FeasibilityGateResult :=
  gateLoop (dictGet (·.alternativeId) feasibility) alternatives

/-! ### What the gate returns -/

/-- The status that the verdict dictionary holds for an alternative. -/
def statusOf (verdicts : UUID → Option FeasibilityVerdict) (a : UUID) :
    Option FeasibilityStatus :=
  (verdicts a).map (·.status)

/-- **Gate specification.**  The gate never raises; it keeps, in order, the alternatives
    whose verdict is not UNSAT, and lists the UNSAT and the UNKNOWN verdicts. -/
theorem gateLoop_eq (verdicts : UUID → Option FeasibilityVerdict) (alts : List AlternativeInput) :
    gateLoop verdicts alts = .ok
      { rankable := alts.filter fun a => statusOf verdicts a.alternativeId ≠ some .unsat
        infeasible := (alts.filterMap fun a => verdicts a.alternativeId).filter
          fun v => v.status = .unsat
        unknown := (alts.filterMap fun a => verdicts a.alternativeId).filter
          fun v => v.status = .unknown } := by
  induction alts with
  | nil => rfl
  | cons alt rest ih =>
    cases hv : verdicts alt.alternativeId with
    | none => simp [gateLoop, hv, ih, statusOf]
    | some v =>
      simp only [gateLoop, hv, ih, decideStatus_verdict, Except.ok_bind]
      cases hs : v.status <;> simp [FeasibilityStatus.action, statusOf, hv, hs]

section Context

variable {D : Type} [DecimalArith D] (ctx : ConsensusContext D)

/-- The feasibility verdict of the context for an alternative has this status. -/
def ConsensusContext.HasVerdict (a : UUID) (status : FeasibilityStatus) : Prop :=
  ∃ v ∈ ctx.feasibility, v.alternativeId = a ∧ v.status = status

/-- The gate's result on a context. -/
def ConsensusContext.gate : FeasibilityGateResult where
  rankable := ctx.alternatives.filter fun a =>
    statusOf (dictGet (·.alternativeId) ctx.feasibility) a.alternativeId ≠ some .unsat
  infeasible := (ctx.alternatives.filterMap fun a =>
    dictGet (·.alternativeId) ctx.feasibility a.alternativeId).filter fun v => v.status = .unsat
  unknown := (ctx.alternatives.filterMap fun a =>
    dictGet (·.alternativeId) ctx.feasibility a.alternativeId).filter fun v => v.status = .unknown

variable {ctx}

theorem feasibilityGate_eq :
    feasibilityGate ctx.alternatives ctx.feasibility = .ok ctx.gate :=
  gateLoop_eq _ _

theorem statusOf_eq_some_iff {a : UUID} {status : FeasibilityStatus} :
    statusOf (dictGet (·.alternativeId) ctx.feasibility) a = some status
      ↔ ctx.HasVerdict a status := by
  simp only [statusOf, Option.map_eq_some_iff, dictGet_eq_some ctx.unique_verdicts,
    ConsensusContext.HasVerdict, and_assoc]

theorem mem_rankable_iff {alt : AlternativeInput} :
    alt ∈ ctx.gate.rankable
      ↔ alt ∈ ctx.alternatives ∧ ¬ ctx.HasVerdict alt.alternativeId .unsat := by
  rw [← statusOf_eq_some_iff]
  simp [ConsensusContext.gate]

/-- A verdict id is that of an alternative, so the verdict is met by the gate's loop. -/
theorem mem_verdicts_iff {v : FeasibilityVerdict} :
    v ∈ ctx.alternatives.filterMap
        (fun a => dictGet (·.alternativeId) ctx.feasibility a.alternativeId)
      ↔ v ∈ ctx.feasibility := by
  simp only [List.mem_filterMap, dictGet_eq_some ctx.unique_verdicts]
  constructor
  · rintro ⟨_, _, hv, _⟩
    exact hv
  · intro hv
    obtain ⟨alt, halt, hid⟩ := List.mem_map.mp (ctx.feasibility_matches_alternatives v hv)
    exact ⟨alt, halt, hv, hid.symm⟩

theorem mem_unknown_iff {v : FeasibilityVerdict} :
    v ∈ ctx.gate.unknown ↔ v ∈ ctx.feasibility ∧ v.status = .unknown := by
  simp only [ConsensusContext.gate, List.mem_filter, mem_verdicts_iff, decide_eq_true_eq]

/-- The `any(v.alternative_id == a for v in gate.unknown)` test of the strategies. -/
theorem any_unknown_iff {a : UUID} :
    (ctx.gate.unknown.any fun v => v.alternativeId = a) = true ↔ ctx.HasVerdict a .unknown := by
  simp only [List.any_eq_true, mem_unknown_iff, decide_eq_true_eq, ConsensusContext.HasVerdict]
  exact ⟨fun ⟨v, ⟨hv, hs⟩, ha⟩ => ⟨v, hv, ha, hs⟩, fun ⟨v, hv, ha, hs⟩ => ⟨v, ⟨hv, hs⟩, ha⟩⟩

theorem allInfeasible_iff :
    ctx.gate.allInfeasible = true
      ↔ ∀ alt ∈ ctx.alternatives, ctx.HasVerdict alt.alternativeId .unsat := by
  rw [FeasibilityGateResult.allInfeasible, List.isEmpty_iff, List.eq_nil_iff_forall_not_mem]
  simp only [mem_rankable_iff, not_and, not_not]

/-- The unsat core the context records for an alternative. -/
def ConsensusContext.unsatCoreOf (ctx : ConsensusContext D) (a : UUID) : List String :=
  ((ctx.feasibility.find? fun v => v.alternativeId = a).map (·.unsatCore)).getD []

/-- A verdict other than UNSAT has no core. -/
theorem unsatCore_eq_nil {v : FeasibilityVerdict} (hs : v.status ≠ .unsat) : v.unsatCore = [] := by
  have hv := v.evidenceMatchesStatus
  cases hst : v.status with
  | sat => simp only [hst] at hv; exact hv.1
  | unsat => exact absurd hst hs
  | unknown => simp only [hst] at hv; exact hv.2.1

/-- The cores of the infeasible verdicts are all the cores, in alternative order. -/
theorem infeasible_cores :
    ctx.gate.infeasible.flatMap (·.unsatCore)
      = ctx.alternatives.flatMap fun alt => ctx.unsatCoreOf alt.alternativeId := by
  simp only [ConsensusContext.gate, ConsensusContext.unsatCoreOf,
    dictGet_eq_find? ctx.unique_verdicts]
  induction ctx.alternatives with
  | nil => rfl
  | cons alt rest ih =>
    rw [List.flatMap_cons, ← ih]
    cases hget : ctx.feasibility.find? fun v => v.alternativeId = alt.alternativeId with
    | none => simp [hget]
    | some v =>
      by_cases hs : v.status = .unsat
      · simp [hget, hs]
      · simp [hget, hs, unsatCore_eq_nil hs]

end Context

end Agora.Consensus
