import Mathlib.Order.Bounds.Basic
import Mathlib.Order.Interval.Set.Basic

namespace Agora

/-!
# Which fault is reported

A check looks at its input one scope after another and stops at the first scope that has faults.
Of these it reports the least.  `Decides scopes a` says that `a` is reported.  What a fault of the
deciding scope masks is of a later scope (`Decides.le_or`), so nothing is masked where the scopes
come in order (`Decides.isLeast`).  A scope is written as a table of faults and conditions
(`faultsOf`); looking at the entries of a sorted table one after another comes down to the same
(`Decides.isLeast_faultsOf`).
-/

variable {α : Type*}

/-- The fault, where it is there. -/
def faultIf (a : α) (p : Prop) : Set α := {b | b = a ∧ p}

@[simp] theorem mem_faultIf {a b : α} {p : Prop} : b ∈ faultIf a p ↔ b = a ∧ p := Iff.rfl

theorem faultIf_eq_empty {a : α} {p : Prop} (h : ¬ p) : faultIf a p = ∅ := by
  ext b
  simp [h]

/-- The faults of a table whose conditions hold. -/
def faultsOf (table : List (α × Prop)) : Set α := {a | ∃ entry ∈ table, a ∈ faultIf entry.1 entry.2}

@[simp] theorem mem_faultsOf {table : List (α × Prop)} {a : α} :
    a ∈ faultsOf table ↔ ∃ entry ∈ table, a = entry.1 ∧ entry.2 := Iff.rfl

theorem faultsOf_eq_empty_iff {table : List (α × Prop)} : faultsOf table = ∅
    ↔ ∀ S ∈ table.map fun entry => faultIf entry.1 entry.2, S = ∅ := by
  simp only [Set.eq_empty_iff_forall_notMem, List.forall_mem_map]
  constructor
  · intro h entry hentry a ha
    exact h a ⟨entry, hentry, ha⟩
  · rintro h a ⟨entry, hentry, ha⟩
    exact h entry hentry a ha

variable [LinearOrder α] {scopes scopes' : List (Set α)} {S : Set α} {a b : α} {p : Prop}

theorem isLeast_faultIf (h : p) : IsLeast (faultIf a p) a := by
  refine ⟨⟨rfl, h⟩, ?_⟩
  rintro b ⟨rfl, -⟩
  exact le_rfl

theorem faultIf_subset {low high : α} (h : low ≤ a ∧ a ≤ high) :
    faultIf a p ⊆ Set.Icc low high := by
  rintro _ ⟨rfl, -⟩
  exact h

theorem faultsOf_subset {table : List (α × Prop)} {low high : α}
    (h : ∀ a ∈ table.map Prod.fst, low ≤ a ∧ a ≤ high) : faultsOf table ⊆ Set.Icc low high := by
  rintro _ ⟨entry, hentry, rfl, -⟩
  exact h _ (List.mem_map_of_mem hentry)

/-- The first scope with faults decides, for the least of its faults. -/
inductive Decides : List (Set α) → α → Prop
  | here {S : Set α} {scopes : List (Set α)} {a : α} (h : IsLeast S a) : Decides (S :: scopes) a
  | later {scopes : List (Set α)} {a : α} (h : Decides scopes a) : Decides (∅ :: scopes) a

namespace Decides

/-- What is reported is a fault. -/
theorem exists_mem (h : Decides scopes a) : ∃ S ∈ scopes, a ∈ S := by
  induction h with
  | here h => exact ⟨_, List.mem_cons_self, h.1⟩
  | later _ ih =>
    obtain ⟨S, hS, ha⟩ := ih
    exact ⟨S, List.mem_cons_of_mem _ hS, ha⟩

theorem append (h : Decides scopes a) (scopes' : List (Set α)) : Decides (scopes ++ scopes') a := by
  induction h with
  | here h => exact .here h
  | later _ ih => exact .later ih

/-- Either a scope of the first half decides, or that half has no faults. -/
theorem of_append (h : Decides (scopes ++ scopes') a) :
    Decides scopes a ∨ (∀ S ∈ scopes, S = ∅) ∧ Decides scopes' a := by
  induction scopes with
  | nil => exact .inr ⟨fun S hS => absurd hS List.not_mem_nil, h⟩
  | cons S scopes ih =>
    cases h with
    | here h => exact .inl (.here h)
    | later h =>
      rcases ih h with h | ⟨hempty, h⟩
      · exact .inl (.later h)
      · exact .inr ⟨List.forall_mem_cons.mpr ⟨rfl, hempty⟩, h⟩

/-- Scopes without faults decide nothing. -/
theorem of_empty (hempty : ∀ S ∈ scopes, S = ∅) (h : Decides scopes' a) :
    Decides (scopes ++ scopes') a := by
  induction scopes with
  | nil => exact h
  | cons S scopes ih =>
    obtain ⟨rfl, hrest⟩ := List.forall_mem_cons.mp hempty
    exact .later (ih hrest)

/-- **Masking.**  A fault is less than the reported one only if an earlier scope may mask it. -/
theorem le_or {masks : α → α → Prop} (h : Decides scopes a)
    (hmasks : scopes.Pairwise fun S T => ∀ b ∈ S, ∀ c ∈ T, b ≤ c ∨ masks b c) :
    ∀ S ∈ scopes, ∀ b ∈ S, a ≤ b ∨ masks a b := by
  induction h with
  | here h =>
    intro T hT b hb
    rcases List.mem_cons.mp hT with rfl | hT
    · exact .inl (h.2 hb)
    · exact (List.pairwise_cons.mp hmasks).1 T hT _ h.1 b hb
  | later _ ih =>
    intro T hT b hb
    rcases List.mem_cons.mp hT with rfl | hT
    · exact absurd hb (Set.notMem_empty b)
    · exact ih (List.pairwise_cons.mp hmasks).2 T hT b hb

/-- Where the scopes come in order, the least of all faults is reported. -/
theorem isLeast (h : Decides scopes a)
    (hsorted : scopes.Pairwise fun S T => ∀ b ∈ S, ∀ c ∈ T, b ≤ c) :
    IsLeast {b | ∃ S ∈ scopes, b ∈ S} a := by
  refine ⟨h.exists_mem, ?_⟩
  rintro b ⟨S, hS, hb⟩
  have hmasks : scopes.Pairwise fun S T => ∀ b ∈ S, ∀ c ∈ T, b ≤ c ∨ False :=
    hsorted.imp fun hle b hb c hc => .inl (hle b hb c hc)
  exact (h.le_or hmasks S hS b hb).resolve_right id

/-- The entries of a sorted table, one after another, decide as the table does. -/
theorem isLeast_faultsOf {table : List (α × Prop)} (hsorted : (table.map Prod.fst).Pairwise (· ≤ ·))
    (h : Decides (table.map fun entry => faultIf entry.1 entry.2) a) :
    IsLeast (faultsOf table) a := by
  have hscopes : (table.map fun entry => faultIf entry.1 entry.2).Pairwise
      fun S T => ∀ b ∈ S, ∀ c ∈ T, b ≤ c := by
    rw [List.pairwise_map] at hsorted ⊢
    refine hsorted.imp fun hle b hb c hc => ?_
    obtain ⟨rfl, -⟩ := hb
    obtain ⟨rfl, -⟩ := hc
    exact hle
  have hleast := h.isLeast hscopes
  have hset : {b | ∃ S ∈ table.map (fun entry => faultIf entry.1 entry.2), b ∈ S}
      = faultsOf table := by
    ext b
    simp
  rwa [hset] at hleast

theorem table {table : List (α × Prop)} (hsorted : (table.map Prod.fst).Pairwise (· ≤ ·))
    (h : Decides (table.map (fun entry => faultIf entry.1 entry.2) ++ scopes) a) :
    Decides (faultsOf table :: scopes) a := by
  rcases h.of_append with h | ⟨hempty, h⟩
  · exact .here (h.isLeast_faultsOf hsorted)
  · rw [faultsOf_eq_empty_iff.mpr hempty]
    exact .later h

end Decides

end Agora
