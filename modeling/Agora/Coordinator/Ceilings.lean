import Agora.Consensus.Decimal
import Mathlib.Data.List.Basic

namespace Agora.Coordinator

open Consensus (ParamValue ParamMap readSign readDigits readExponent)

/-!
# Usage and ceilings

Every call of a model is a row with its tokens and its cost.  A session has a ceiling of its own and
an agent may have one, written by hand in the budget of its definition.  `breachOf` looks for the
first scope whose usage has reached its ceiling: the session, then the agents of a batch.  It finds
one, finds none, or meets a budget that is no ceiling (`breachOf_cases`).
-/

/-! ### Decimals -/

/-- A `decimal.Decimal` that is finite and not negative. -/
structure Decimal where
  coefficient : ℕ
  exponent : ℤ
deriving DecidableEq, Repr

namespace Decimal

def value (d : Decimal) : ℚ := d.coefficient * (10 : ℚ) ^ d.exponent

/-- A sign, and a number. -/
def signed (n : ℤ) : String := if n < 0 then toString n else "+" ++ toString n

/-- `str(d)`. -/
def text (d : Decimal) : String :=
  let digits := toString d.coefficient
  let leftDigits : ℤ := d.exponent + digits.length
  let dotPlace : ℤ := if d.exponent ≤ 0 ∧ -6 < leftDigits then leftDigits else 1
  let body :=
    if dotPlace ≤ 0 then "0." ++ String.ofList (List.replicate dotPlace.natAbs '0') ++ digits
    else if digits.length ≤ dotPlace then
      digits ++ String.ofList (List.replicate (dotPlace.natAbs - digits.length) '0')
    else String.ofList (digits.toList.take dotPlace.natAbs) ++ "."
      ++ String.ofList (digits.toList.drop dotPlace.natAbs)
  if leftDigits = dotPlace then body else body ++ "E" ++ signed (leftDigits - dotPlace)

example : (⟨30000000, -8⟩ : Decimal).text = "0.30000000" ∧ (⟨0, -8⟩ : Decimal).text = "0E-8"
    ∧ (⟨1, 3⟩ : Decimal).text = "1E+3" ∧ (⟨1000, -2⟩ : Decimal).text = "10.00" := by decide +kernel

end Decimal

/-- The digits zero of Unicode; each is followed by the other nine. -/
def decimalZeros : List ℕ :=
  [0x30, 0x660, 0x6F0, 0x7C0, 0x966, 0x9E6, 0xA66, 0xAE6, 0xB66, 0xBE6, 0xC66, 0xCE6, 0xD66, 0xDE6,
    0xE50, 0xED0, 0xF20, 0x1040, 0x1090, 0x17E0, 0x1810, 0x1946, 0x19D0, 0x1A80, 0x1A90, 0x1B50,
    0x1BB0, 0x1C40, 0x1C50, 0xA620, 0xA8D0, 0xA900, 0xA9D0, 0xA9F0, 0xAA50, 0xABF0, 0xFF10, 0x104A0,
    0x10D30, 0x11066, 0x110F0, 0x11136, 0x111D0, 0x112F0, 0x11450, 0x114D0, 0x11650, 0x116C0, 0x11730,
    0x118E0, 0x11950, 0x11C50, 0x11D50, 0x11DA0, 0x11F50, 0x16A60, 0x16AC0, 0x16B50, 0x1D7CE, 0x1D7D8,
    0x1D7E2, 0x1D7EC, 0x1D7F6, 0x1E140, 0x1E2F0, 0x1E4F0, 0x1E950, 0x1FBF0]

/-- A decimal digit in ASCII. -/
def asciiDigit (c : Char) : Char :=
  match decimalZeros.find? fun base => base ≤ c.toNat ∧ c.toNat < base + 10 with
  | some base => Char.ofNat ('0'.toNat + (c.toNat - base))
  | none => c

/-- `Decimal(text)`, with its sign, where the text is of a finite number within the limits of the
    exponent. -/
def decimalOfText (text : String) : Option (Bool × Decimal) :=
  let trimmed := ((text.toList.dropWhile isSpace).reverse.dropWhile isSpace).reverse
  let (negative, cs) := readSign ((trimmed.filter (· ≠ '_')).map asciiDigit)
  let (whole, wholeCount, rest) := readDigits 0 0 cs
  let (coefficient, count, rest) := match rest with
    | '.' :: rest => readDigits whole 0 rest
    | rest => (whole, 0, rest)
  if wholeCount + count = 0 then none
  else
    (readExponent rest).bind fun e =>
      let exponent := e - (count : ℤ)
      let adjusted := exponent + (toString coefficient).length - 1
      if adjusted ≤ 999999999999999999 ∧ -1999999999999999997 ≤ exponent then
        some (negative, ⟨coefficient, exponent⟩)
      else none

/-! ### Ceilings -/

structure BudgetUsage where
  inputTokens : ℕ
  outputTokens : ℕ
  costUsd : Decimal

def BudgetUsage.tokens (u : BudgetUsage) : ℕ := u.inputTokens + u.outputTokens

structure BudgetCeiling where
  maxTokens : ℕ
  maxUsd : Decimal
  positive_tokens : 0 < maxTokens
  positive_usd : 0 < maxUsd.coefficient

/-- The budget columns of `SessionRow`; the costs of a session are in cents. -/
structure SessionBudget where
  workspaceId : UUID
  budgetTokens : ℕ
  budgetCents : ℕ
  budget_tokens_positive : 0 < budgetTokens
  budget_usd_positive : 0 < budgetCents

/-- The budget column of `AgentDefinitionRow`. -/
structure AgentBudget where
  workspaceId : UUID
  budget : ParamMap

/-- The rows that hold ceilings, by id. -/
structure BudgetTables where
  sessions : UUID → Option SessionBudget
  agents : UUID → Option AgentBudget

/-- `BudgetCeiling(...)` of values from a budget. -/
def budgetCeiling (maxTokens : ℤ) (negative : Bool) (maxUsd : Decimal) : Option BudgetCeiling :=
  if h : 0 < maxTokens.toNat ∧ 0 < maxUsd.coefficient then
    if negative then none else some ⟨maxTokens.toNat, maxUsd, h.1, h.2⟩
  else none

/-- The ceiling that a budget with the right keys states. -/
def statedCeiling (budget : ParamMap) : Option BudgetCeiling :=
  match budget.lookup "max_tokens", budget.lookup "max_cost_usd" with
  | some (.int maxTokens), some cost =>
    (decimalOfText cost.toStr).bind fun maxUsd => budgetCeiling maxTokens maxUsd.1 maxUsd.2
  | _, _ => none

namespace BudgetTables

variable (tables : BudgetTables)

def sessionCeiling (workspaceId sessionId : UUID) : Option BudgetCeiling :=
  ((tables.sessions sessionId).filter (·.workspaceId = workspaceId)).map fun row =>
    ⟨row.budgetTokens, ⟨row.budgetCents, -2⟩, row.budget_tokens_positive, row.budget_usd_positive⟩

def agentCeiling (workspaceId agentDefinitionId : UUID) : Py (Option BudgetCeiling) :=
  match (tables.agents agentDefinitionId).filter (·.workspaceId = workspaceId) with
  | none => .ok none
  | some row =>
    if row.budget.isEmpty then .ok none
    else if ¬ (row.budget.all (·.1 ∈ ["max_tokens", "max_cost_usd"])
        ∧ ["max_tokens", "max_cost_usd"].all (· ∈ row.budget.map (·.1))) then
      .error (.valueError "agent budget must contain max_tokens and max_cost_usd exactly")
    else
      match statedCeiling row.budget with
      | some ceiling => .ok (some ceiling)
      | none => .error (.valueError "agent budget ceiling is invalid")

end BudgetTables

/-! ### Usage -/

/-- `LLMCallRecordRow`; its cost is in units of the last of its eight places. -/
structure LLMCallRecord where
  workspaceId : UUID
  sessionId : Option UUID
  agentDefId : Option UUID
  inputTokens : ℕ
  outputTokens : ℕ
  costUnits : ℕ

/-- `_usage`. -/
def usage (calls : List LLMCallRecord) (workspaceId sessionId : UUID) (agentDefinitionId : Option UUID) :
    BudgetUsage :=
  let rows := calls.filter fun c => c.workspaceId = workspaceId ∧ c.sessionId = some sessionId
    ∧ (agentDefinitionId = none ∨ c.agentDefId = agentDefinitionId)
  { inputTokens := (rows.map (·.inputTokens)).sum
    outputTokens := (rows.map (·.outputTokens)).sum
    costUsd := if rows.isEmpty then ⟨0, 0⟩ else ⟨(rows.map (·.costUnits)).sum, -8⟩ }

/-! ### Breaches -/

/-- A ceiling that has been reached: of the session, or of an agent. -/
structure Breach where
  agentDefinitionId : Option UUID
  usage : BudgetUsage
  ceiling : BudgetCeiling

def Breach.scope (b : Breach) : String := if b.agentDefinitionId = none then "SESSION" else "AGENT"

/-- Tokens or costs are at the ceiling. -/
def BudgetUsage.Reaches (u : BudgetUsage) (ceiling : BudgetCeiling) : Prop :=
  ceiling.maxTokens ≤ u.tokens ∨ ceiling.maxUsd.value ≤ u.costUsd.value

instance (u : BudgetUsage) (ceiling : BudgetCeiling) : Decidable (u.Reaches ceiling) := by
  unfold BudgetUsage.Reaches
  infer_instance

/-- `_breach`. -/
def breach (agentDefinitionId : Option UUID) (usage : BudgetUsage) (ceiling : Option BudgetCeiling) :
    Option Breach :=
  ceiling.bind fun ceiling =>
    if usage.Reaches ceiling then some ⟨agentDefinitionId, usage, ceiling⟩ else none

section Scopes

variable (tables : BudgetTables) (calls : List LLMCallRecord) (workspaceId sessionId : UUID)

/-- The loop over the agents. -/
def agentBreach : List UUID → Py (Option Breach)
  | [] => .ok none
  | agentId :: rest => do
    let ceiling ← tables.agentCeiling workspaceId agentId
    match breach (some agentId) (usage calls workspaceId sessionId (some agentId)) ceiling with
    | some b => pure (some b)
    | none => agentBreach rest

/-- The first breach: of the session, or else of the agents, each looked at once. -/
def breachOf (agentDefinitionIds : List UUID) : Py (Option Breach) :=
  match breach none (usage calls workspaceId sessionId none)
      (tables.sessionCeiling workspaceId sessionId) with
  | some b => .ok (some b)
  | none => agentBreach tables calls workspaceId sessionId agentDefinitionIds.eraseDups

/-! ### What a scan finds -/

/-- The ceiling of the session, or of an agent. -/
def ceilingOf : Option UUID → Py (Option BudgetCeiling)
  | none => .ok (tables.sessionCeiling workspaceId sessionId)
  | some agentId => tables.agentCeiling workspaceId agentId

/-- The ceiling of the scope can be read, and is not reached. -/
def Clear (scope : Option UUID) : Prop :=
  ∃ ceiling, ceilingOf tables workspaceId sessionId scope = .ok ceiling
    ∧ ∀ c ∈ ceiling, ¬ (usage calls workspaceId sessionId scope).Reaches c

/-- The session, and the agents in the order of the batch. -/
def scopes (agentDefinitionIds : List UUID) : List (Option UUID) :=
  none :: agentDefinitionIds.eraseDups.map some

/-- Neither the session nor an agent has reached its ceiling. -/
def NothingReached (agentDefinitionIds : List UUID) : Prop :=
  Clear tables calls workspaceId sessionId none
    ∧ ∀ agentId ∈ agentDefinitionIds, Clear tables calls workspaceId sessionId (some agentId)

/-- The first scope that is not clear has reached its ceiling. -/
def FirstReached (agentDefinitionIds : List UUID) (b : Breach) : Prop :=
  ∃ before after, scopes agentDefinitionIds = before ++ b.agentDefinitionId :: after
    ∧ (∀ scope ∈ before, Clear tables calls workspaceId sessionId scope)
    ∧ ceilingOf tables workspaceId sessionId b.agentDefinitionId = .ok (some b.ceiling)
    ∧ b.usage = usage calls workspaceId sessionId b.agentDefinitionId ∧ b.usage.Reaches b.ceiling

/-- The first scope that is not clear has a budget that is no ceiling. -/
def FirstUnreadable (agentDefinitionIds : List UUID) (e : PyException) : Prop :=
  ∃ before scope after, scopes agentDefinitionIds = before ++ scope :: after
    ∧ (∀ scope ∈ before, Clear tables calls workspaceId sessionId scope)
    ∧ ceilingOf tables workspaceId sessionId scope = .error e

variable {tables calls workspaceId sessionId}

theorem breach_eq_none {scope : Option UUID} {u : BudgetUsage} {ceiling : Option BudgetCeiling} :
    breach scope u ceiling = none ↔ ∀ c ∈ ceiling, ¬ u.Reaches c := by
  cases ceiling with
  | none => simp [breach]
  | some c => simp [breach]

theorem breach_eq_some {scope : Option UUID} {u : BudgetUsage} {ceiling : Option BudgetCeiling}
    {b : Breach} : breach scope u ceiling = some b
      ↔ b.agentDefinitionId = scope ∧ b.usage = u ∧ ceiling = some b.ceiling ∧ u.Reaches b.ceiling := by
  cases ceiling with
  | none => simp [breach]
  | some c =>
    simp only [breach, Option.bind_some, Option.ite_none_right_eq_some, Option.some.injEq]
    constructor
    · rintro ⟨hreaches, rfl⟩
      exact ⟨rfl, rfl, rfl, hreaches⟩
    · rintro ⟨rfl, rfl, rfl, hreaches⟩
      exact ⟨hreaches, rfl⟩

/-- The loop stops at the first agent that is not clear. -/
theorem agentBreach_cases (agentIds : List UUID) :
    (agentBreach tables calls workspaceId sessionId agentIds = .ok none
        ∧ ∀ agentId ∈ agentIds, Clear tables calls workspaceId sessionId (some agentId))
      ∨ ∃ before agentId after, agentIds = before ++ agentId :: after
        ∧ (∀ a ∈ before, Clear tables calls workspaceId sessionId (some a))
        ∧ ((∃ e, agentBreach tables calls workspaceId sessionId agentIds = .error e
            ∧ tables.agentCeiling workspaceId agentId = .error e)
          ∨ ∃ b, agentBreach tables calls workspaceId sessionId agentIds = .ok (some b)
            ∧ b.agentDefinitionId = some agentId
            ∧ tables.agentCeiling workspaceId agentId = .ok (some b.ceiling)
            ∧ b.usage = usage calls workspaceId sessionId (some agentId) ∧ b.usage.Reaches b.ceiling) := by
  induction agentIds with
  | nil => exact .inl ⟨rfl, nofun⟩
  | cons agentId rest ih =>
    cases hceiling : tables.agentCeiling workspaceId agentId with
    | error e =>
      refine .inr ⟨[], agentId, rest, rfl, nofun, .inl ⟨e, ?_, hceiling⟩⟩
      rw [agentBreach, hceiling]
      rfl
    | ok ceiling =>
      have hstep : agentBreach tables calls workspaceId sessionId (agentId :: rest)
          = match breach (some agentId) (usage calls workspaceId sessionId (some agentId)) ceiling with
            | some b => pure (some b)
            | none => agentBreach tables calls workspaceId sessionId rest := by
        rw [agentBreach, hceiling]
        rfl
      cases hbreach : breach (some agentId) (usage calls workspaceId sessionId (some agentId)) ceiling with
      | some b =>
        obtain ⟨hscope, husage, hsome, hreaches⟩ := breach_eq_some.mp hbreach
        rw [hbreach] at hstep
        refine .inr ⟨[], agentId, rest, rfl, nofun, .inr ⟨b, hstep, hscope, ?_, husage, ?_⟩⟩
        · rw [hceiling, hsome]
        · rw [husage]
          exact hreaches
      | none =>
        -- This agent is clear, so the loop goes on to the others.
        have hclear : Clear tables calls workspaceId sessionId (some agentId) :=
          ⟨ceiling, hceiling, breach_eq_none.mp hbreach⟩
        rw [hbreach] at hstep
        rw [hstep]
        rcases ih with ⟨hnone, hrest⟩ | ⟨before, a, after, heq, hbefore, hfound⟩
        · refine .inl ⟨hnone, fun a ha => ?_⟩
          rcases List.mem_cons.mp ha with rfl | ha
          · exact hclear
          · exact hrest a ha
        · refine .inr ⟨agentId :: before, a, after, by rw [heq, List.cons_append], fun x hx => ?_, hfound⟩
          rcases List.mem_cons.mp hx with rfl | hx
          · exact hclear
          · exact hbefore x hx

/-- **Scan.**  Nothing is reached, or a ceiling is, or a budget is no ceiling. -/
theorem breachOf_cases (agentDefinitionIds : List UUID) :
    (breachOf tables calls workspaceId sessionId agentDefinitionIds = .ok none
        ∧ NothingReached tables calls workspaceId sessionId agentDefinitionIds)
      ∨ (∃ b, breachOf tables calls workspaceId sessionId agentDefinitionIds = .ok (some b)
        ∧ FirstReached tables calls workspaceId sessionId agentDefinitionIds b)
      ∨ ∃ e, breachOf tables calls workspaceId sessionId agentDefinitionIds = .error e
        ∧ FirstUnreadable tables calls workspaceId sessionId agentDefinitionIds e := by
  unfold breachOf
  cases hsession : breach none (usage calls workspaceId sessionId none)
      (tables.sessionCeiling workspaceId sessionId) with
  | some b =>
    obtain ⟨hscope, husage, hsome, hreaches⟩ := breach_eq_some.mp hsession
    refine .inr (.inl ⟨b, rfl, [], agentDefinitionIds.eraseDups.map some, ?_, nofun, ?_, ?_, ?_⟩)
    · rw [hscope]
      rfl
    · rw [hscope, ceilingOf, hsome]
    · rw [husage, hscope]
    · rw [husage]
      exact hreaches
  | none =>
    have hclear : Clear tables calls workspaceId sessionId none := ⟨_, rfl, breach_eq_none.mp hsession⟩
    have hbefore {before : List UUID}
        (h : ∀ a ∈ before, Clear tables calls workspaceId sessionId (some a)) :
        ∀ scope ∈ none :: before.map some, Clear tables calls workspaceId sessionId scope := by
      intro scope hscope
      rcases List.mem_cons.mp hscope with rfl | hscope
      · exact hclear
      · obtain ⟨a, ha, rfl⟩ := List.mem_map.mp hscope
        exact h a ha
    have hscopes {before after : List UUID} {a : UUID}
        (h : agentDefinitionIds.eraseDups = before ++ a :: after) :
        scopes agentDefinitionIds = (none :: before.map some) ++ some a :: after.map some := by
      rw [scopes, h, List.map_append, List.map_cons, List.cons_append]
    rcases @agentBreach_cases tables calls workspaceId sessionId agentDefinitionIds.eraseDups with
      ⟨hnone, hrest⟩ | ⟨before, a, after, heq, hbefores, ⟨e, hfound, hceiling⟩ | ⟨b, hfound, hscope,
        hceiling, husage, hreaches⟩⟩
    · exact .inl ⟨hnone, hclear, fun a ha => hrest a (List.mem_eraseDups.mpr ha)⟩
    · exact .inr (.inr ⟨e, hfound, _, some a, _, hscopes heq, hbefore hbefores, hceiling⟩)
    · refine .inr (.inl ⟨b, hfound, none :: before.map some, after.map some, ?_, hbefore hbefores, ?_, ?_,
        hreaches⟩)
      · rw [hscope]
        exact hscopes heq
      · rw [hscope]
        exact hceiling
      · rw [hscope]
        exact husage

/-- The three findings exclude each other. -/
theorem not_clear_of_reaches {scope : Option UUID} {c : BudgetCeiling}
    (hceiling : ceilingOf tables workspaceId sessionId scope = .ok (some c))
    (hreaches : (usage calls workspaceId sessionId scope).Reaches c) :
    ¬ Clear tables calls workspaceId sessionId scope := by
  rintro ⟨ceiling, hok, hclear⟩
  rw [hceiling] at hok
  obtain rfl := Except.ok.inj hok
  exact hclear c rfl hreaches

theorem not_clear_of_unreadable {scope : Option UUID} {e : PyException}
    (hceiling : ceilingOf tables workspaceId sessionId scope = .error e) :
    ¬ Clear tables calls workspaceId sessionId scope := by
  rintro ⟨ceiling, hok, -⟩
  rw [hceiling] at hok
  cases hok

/-- Every scope of a batch is clear exactly when nothing is reached. -/
theorem nothingReached_iff {agentDefinitionIds : List UUID} :
    NothingReached tables calls workspaceId sessionId agentDefinitionIds
      ↔ ∀ scope ∈ scopes agentDefinitionIds, Clear tables calls workspaceId sessionId scope := by
  simp [NothingReached, scopes]

/-- Only one member of a list is the first without a property. -/
theorem first_unique {α : Type} {P : α → Prop} {l before after before' after' : List α} {x x' : α}
    (h : l = before ++ x :: after) (h' : l = before' ++ x' :: after') (hbefore : ∀ y ∈ before, P y)
    (hbefore' : ∀ y ∈ before', P y) (hx : ¬ P x) (hx' : ¬ P x') : x = x' := by
  induction before generalizing l before' with
  | nil =>
    cases before' with
    | nil =>
      rw [h] at h'
      exact (List.cons.inj h').1
    | cons y before' =>
      rw [h] at h'
      obtain rfl := (List.cons.inj h').1
      exact absurd (hbefore' x List.mem_cons_self) hx
  | cons y before ih =>
    cases before' with
    | nil =>
      rw [h] at h'
      obtain rfl := (List.cons.inj h').1
      exact absurd (hbefore y List.mem_cons_self) hx'
    | cons y' before' =>
      rw [h] at h'
      exact ih rfl (List.cons.inj h').2 (fun z hz => hbefore z (List.mem_cons_of_mem _ hz))
        fun z hz => hbefore' z (List.mem_cons_of_mem _ hz)

/-- What goes with a result of the scan. -/
def Explains (tables : BudgetTables) (calls : List LLMCallRecord) (workspaceId sessionId : UUID)
    (agentDefinitionIds : List UUID) : Py (Option Breach) → Prop
  | .ok none => NothingReached tables calls workspaceId sessionId agentDefinitionIds
  | .ok (some b) => FirstReached tables calls workspaceId sessionId agentDefinitionIds b
  | .error e => FirstUnreadable tables calls workspaceId sessionId agentDefinitionIds e

variable {agentDefinitionIds : List UUID}

/-- Every scope is clear, or the first one that is not gives the result. -/
theorem Explains.first {r : Py (Option Breach)}
    (h : Explains tables calls workspaceId sessionId agentDefinitionIds r) :
    (r = .ok none
        ∧ ∀ scope ∈ scopes agentDefinitionIds, Clear tables calls workspaceId sessionId scope)
      ∨ ∃ before scope after, scopes agentDefinitionIds = before ++ scope :: after
        ∧ (∀ s ∈ before, Clear tables calls workspaceId sessionId s)
        ∧ ¬ Clear tables calls workspaceId sessionId scope
        ∧ r = (ceilingOf tables workspaceId sessionId scope).map
          (breach scope (usage calls workspaceId sessionId scope)) := by
  match r, h with
  | .ok none, hnothing => exact .inl ⟨rfl, nothingReached_iff.mp hnothing⟩
  | .ok (some b), ⟨before, after, heq, hbefore, hceiling, husage, hreaches⟩ =>
    rw [husage] at hreaches
    refine .inr ⟨before, _, after, heq, hbefore, not_clear_of_reaches hceiling hreaches, ?_⟩
    rw [hceiling, Except.map, breach_eq_some.mpr ⟨rfl, husage, rfl, hreaches⟩]
  | .error e, ⟨before, scope, after, heq, hbefore, hceiling⟩ =>
    refine .inr ⟨before, scope, after, heq, hbefore, not_clear_of_unreadable hceiling, ?_⟩
    rw [hceiling]
    rfl

theorem Explains.unique {r r' : Py (Option Breach)}
    (h : Explains tables calls workspaceId sessionId agentDefinitionIds r)
    (h' : Explains tables calls workspaceId sessionId agentDefinitionIds r') : r = r' := by
  rcases h.first with ⟨rfl, hall⟩ | ⟨before, scope, after, heq, hbefore, hdirty, rfl⟩
  · rcases h'.first with ⟨rfl, -⟩ | ⟨before', scope', after', heq', -, hdirty', -⟩
    · rfl
    · exact absurd (hall scope' (by simp [heq'])) hdirty'
  · rcases h'.first with ⟨-, hall'⟩ | ⟨before', scope', after', heq', hbefore', hdirty', rfl⟩
    · exact absurd (hall' scope (by simp [heq])) hdirty
    · rw [first_unique heq heq' hbefore hbefore' hdirty hdirty']

theorem breachOf_eq_iff {r : Py (Option Breach)} :
    breachOf tables calls workspaceId sessionId agentDefinitionIds = r
      ↔ Explains tables calls workspaceId sessionId agentDefinitionIds r := by
  have hscan : Explains tables calls workspaceId sessionId agentDefinitionIds
      (breachOf tables calls workspaceId sessionId agentDefinitionIds) := by
    rcases breachOf_cases agentDefinitionIds with
      ⟨hfound, hnothing⟩ | ⟨b, hfound, hfirst⟩ | ⟨e, hfound, hfirst⟩
    · rw [hfound]
      exact hnothing
    · rw [hfound]
      exact hfirst
    · rw [hfound]
      exact hfirst
  constructor
  · rintro rfl
    exact hscan
  · exact hscan.unique

/-- **Clear batches.**  The scan finds nothing exactly where nothing is reached. -/
theorem breachOf_eq_none : breachOf tables calls workspaceId sessionId agentDefinitionIds = .ok none
    ↔ NothingReached tables calls workspaceId sessionId agentDefinitionIds :=
  breachOf_eq_iff

/-- **Breaches.**  The scan finds a breach exactly where it is the first reached ceiling. -/
theorem breachOf_eq_some {b : Breach} :
    breachOf tables calls workspaceId sessionId agentDefinitionIds = .ok (some b)
      ↔ FirstReached tables calls workspaceId sessionId agentDefinitionIds b :=
  breachOf_eq_iff

/-- **Budgets.**  The scan raises exactly where the first scope that is not clear has no ceiling. -/
theorem breachOf_eq_error {e : PyException} :
    breachOf tables calls workspaceId sessionId agentDefinitionIds = .error e
      ↔ FirstUnreadable tables calls workspaceId sessionId agentDefinitionIds e :=
  breachOf_eq_iff

end Scopes

end Agora.Coordinator
