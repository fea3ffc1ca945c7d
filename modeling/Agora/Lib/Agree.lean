import Agora.Lib.Except
import Mathlib.Data.List.Perm.Basic
import Mathlib.Data.List.Sort

namespace Agora

/-!
# Two runs that agree

What a fallible computation returns on two inputs is compared by `Except.Agree R`: both raise
the same exception, or both return and the values are related by `R`.  The rules follow the
computation: `Agree.bind` through a `>>=`, `agree_mapM` through a loop over two related lists,
and `agree_mapM_perm` through a loop over one list in two orders.

The second part is about lists in two orders or related element by element: sorting,
concatenating and looking up.
-/

variable {ε α β γ δ : Type}

namespace Except

/-- Both raise the same exception, or both return related values. -/
inductive Agree (R : α → β → Prop) : Except ε α → Except ε β → Prop
  | ok {a : α} {b : β} (h : R a b) : Agree R (.ok a) (.ok b)
  | error (e : ε) : Agree R (.error e) (.error e)

/-- Equal computations agree. -/
theorem agree_of_eq {x y : Except ε α} (h : x = y) : Agree Eq x y := by
  subst h
  cases x with
  | error e => exact .error e
  | ok a => exact .ok rfl

/-- Agreement on equality is equality. -/
theorem Agree.eq {x y : Except ε α} (h : Agree Eq x y) : x = y := by
  cases h with
  | ok h => rw [h]
  | error e => rfl

theorem Agree.mono {R S : α → β → Prop} (hRS : ∀ a b, R a b → S a b) {x : Except ε α}
    {y : Except ε β} (h : Agree R x y) : Agree S x y := by
  cases h with
  | ok h => exact .ok (hRS _ _ h)
  | error e => exact .error e

theorem Agree.trans {R : α → β → Prop} {S : β → γ → Prop} {T : α → γ → Prop}
    (hRST : ∀ a b c, R a b → S b c → T a c) {x : Except ε α} {y : Except ε β} {z : Except ε γ}
    (h : Agree R x y) (h' : Agree S y z) : Agree T x z := by
  cases h with
  | ok h =>
    cases h' with
    | ok h' => exact .ok (hRST _ _ _ h h')
  | error e =>
    cases h' with
    | error => exact .error e

/-- The rule for a bind. -/
theorem Agree.bind {R : α → β → Prop} {S : γ → δ → Prop} {x : Except ε α} {y : Except ε β}
    {f : α → Except ε γ} {g : β → Except ε δ} (h : Agree R x y)
    (hfg : ∀ a b, R a b → Agree S (f a) (g b)) : Agree S (x >>= f) (y >>= g) := by
  cases h with
  | ok h => exact hfg _ _ h
  | error e => exact .error e

/-- The rule for a bind that uses what the first computation returned. -/
theorem Agree.bind_ok {R : α → β → Prop} {S : γ → δ → Prop} {x : Except ε α} {y : Except ε β}
    {f : α → Except ε γ} {g : β → Except ε δ} (h : Agree R x y)
    (hfg : ∀ a b, x = .ok a → R a b → Agree S (f a) (g b)) : Agree S (x >>= f) (y >>= g) := by
  cases h with
  | ok h => exact hfg _ _ rfl h
  | error e => exact .error e

/-- The rule for a branch that both take alike. -/
theorem Agree.ite {R : α → β → Prop} {c : Prop} [Decidable c] {x x' : Except ε α}
    {y y' : Except ε β} (h : c → Agree R x y) (h' : ¬ c → Agree R x' y') :
    Agree R (if c then x else x') (if c then y else y') := by
  by_cases hc : c
  · rw [if_pos hc, if_pos hc]
    exact h hc
  · rw [if_neg hc, if_neg hc]
    exact h' hc

/-- The rule for a loop over lists that are related element by element. -/
theorem agree_mapM {P : α → β → Prop} {R : γ → δ → Prop} {f : α → Except ε γ}
    {g : β → Except ε δ} (hfg : ∀ a b, P a b → Agree R (f a) (g b)) {l : List α} {l' : List β}
    (h : List.Forall₂ P l l') : Agree (List.Forall₂ R) (l.mapM f) (l'.mapM g) := by
  induction h with
  | nil => exact .ok .nil
  | cons hab _ ih =>
    simp only [List.mapM_cons]
    apply Agree.bind (hfg _ _ hab)
    intro c d hcd
    apply Agree.bind ih
    intro cs ds hcds
    exact .ok (.cons hcd hcds)

/-- The rule for a loop over one list. -/
theorem agree_mapM_self {R : γ → δ → Prop} {f : α → Except ε γ} {g : α → Except ε δ}
    {l : List α} (hfg : ∀ a ∈ l, Agree R (f a) (g a)) :
    Agree (List.Forall₂ R) (l.mapM f) (l.mapM g) := by
  apply agree_mapM (P := fun a b => a ∈ l ∧ a = b)
  · rintro a _ ⟨ha, rfl⟩
    exact hfg a ha
  · rw [List.forall₂_same]
    intro a ha
    exact ⟨ha, rfl⟩

/-- The rule for a loop over one list in two orders, where the steps raise one exception
    only: otherwise the order decides which one is raised. -/
theorem agree_mapM_perm {f : α → Except ε β} {e : ε} (hraised : ∀ a e', f a = .error e' → e' = e)
    {l l' : List α} (h : l.Perm l') : Agree List.Perm (l.mapM f) (l'.mapM f) := by
  induction h with
  | nil => exact .ok .nil
  | cons a _ ih =>
    simp only [List.mapM_cons]
    apply Agree.bind (agree_of_eq rfl)
    rintro b _ rfl
    apply Agree.bind ih
    intro bs cs hperm
    exact .ok (hperm.cons b)
  | swap a b l =>
    simp only [List.mapM_cons]
    cases ha : f a with
    | error e₁ =>
      obtain rfl := hraised a e₁ ha
      cases hb : f b with
      | error e₂ =>
        obtain rfl := hraised b e₂ hb
        exact .error _
      | ok d => exact .error _
    | ok c =>
      cases hb : f b with
      | error e₂ => exact .error _
      | ok d =>
        simp only [ok_bind]
        cases l.mapM f with
        | error e₂ => exact .error _
        | ok cs => exact .ok (.swap c d cs)
  | trans _ _ ih ih' => exact ih.trans (fun _ _ _ hab hbc => hab.trans hbc) ih'

/-- Where the loop returns, it returns in every order. -/
theorem mapM_perm {f : α → Except ε β} {l l' : List α} (h : l'.Perm l) {ys : List β}
    (hys : l.mapM f = .ok ys) : ∃ ys', l'.mapM f = .ok ys' ∧ ys'.Perm ys := by
  obtain ⟨ys', hys', hperm⟩ := List.perm_comp_forall₂ h (mapM_eq_ok_iff.mp hys)
  exact ⟨ys', mapM_eq_ok_iff.mpr hys', hperm⟩

end Except

/-! ### Lists related element by element -/

theorem forall₂_and_mem {R : α → β → Prop} {l : List α} {l' : List β} (h : List.Forall₂ R l l') :
    List.Forall₂ (fun a b => a ∈ l ∧ R a b) l l' := by
  induction h with
  | nil => exact .nil
  | cons hab _ ih =>
    refine .cons ⟨List.mem_cons_self, hab⟩ (ih.imp ?_)
    rintro a b ⟨ha, hR⟩
    exact ⟨List.mem_cons_of_mem _ ha, hR⟩

/-- Sorting by keys that agree keeps the relation. -/
theorem forall₂_insertionSort {R : α → β → Prop} {r : α → α → Prop} {s : β → β → Prop}
    [DecidableRel r] [DecidableRel s]
    (hrs : ∀ a b c d, R a b → R c d → (r a c ↔ s b d)) {l : List α} {l' : List β}
    (h : List.Forall₂ R l l') :
    List.Forall₂ R (l.insertionSort r) (l'.insertionSort s) := by
  have hinsert : ∀ a b, R a b → ∀ l l', List.Forall₂ R l l' →
      List.Forall₂ R (l.orderedInsert r a) (l'.orderedInsert s b) := by
    intro a b hab l l' h
    induction h with
    | nil => exact .cons hab .nil
    | @cons c d l l' hcd hl ih =>
      simp only [List.orderedInsert_cons]
      by_cases hac : r a c
      · rw [if_pos hac, if_pos ((hrs a b c d hab hcd).mp hac)]
        exact .cons hab (.cons hcd hl)
      · rw [if_neg hac, if_neg (fun hbd => hac ((hrs a b c d hab hcd).mpr hbd))]
        exact .cons hcd ih
  induction h with
  | nil => exact .nil
  | cons hab _ ih =>
    simp only [List.insertionSort_cons]
    exact hinsert _ _ hab _ _ ih

/-- A field that related elements share is shared by the lists. -/
theorem map_eq_of_forall₂ {R : α → β → Prop} {f : α → γ} {g : β → γ}
    (hfg : ∀ a b, R a b → f a = g b) {l : List α} {l' : List β} (h : List.Forall₂ R l l') :
    l.map f = l'.map g := by
  induction h with
  | nil => rfl
  | cons hab _ ih => rw [List.map_cons, List.map_cons, hfg _ _ hab, ih]

/-- A test that related elements share is met by both lists or by neither. -/
theorem any_eq_of_forall₂ {R : α → β → Prop} {p : α → Bool} {q : β → Bool}
    (hpq : ∀ a b, R a b → p a = q b) {l : List α} {l' : List β} (h : List.Forall₂ R l l') :
    l.any p = l'.any q := by
  induction h with
  | nil => rfl
  | cons hab _ ih => rw [List.any_cons, List.any_cons, hpq _ _ hab, ih]

/-- Lists that are permuted element by element are permuted as a whole. -/
theorem flatMap_perm_of_forall₂ {R : α → β → Prop} {f : α → List γ} {g : β → List γ}
    (hfg : ∀ a b, R a b → (f a).Perm (g b)) {l : List α} {l' : List β}
    (h : List.Forall₂ R l l') : (l.flatMap f).Perm (l'.flatMap g) := by
  induction h with
  | nil => exact .nil
  | cons hab _ ih =>
    rw [List.flatMap_cons, List.flatMap_cons]
    exact (hfg _ _ hab).append ih

/-- Looking a key up does not depend on the order of the entries when no key has two
    values. -/
theorem lookup_eq_of_perm [BEq α] [LawfulBEq α] {l l' : List (α × β)} (h : l.Perm l')
    (hunique : ∀ k v v', (k, v) ∈ l → (k, v') ∈ l → v = v') (k : α) :
    l.lookup k = l'.lookup k := by
  have hmem : ∀ {l : List (α × β)} {v : β}, l.lookup k = some v → (k, v) ∈ l := by
    intro l v hv
    obtain ⟨before, after, rfl, -⟩ := List.lookup_eq_some_iff.mp hv
    simp
  cases hl : l.lookup k with
  | none =>
    rw [eq_comm, List.lookup_eq_none_iff]
    intro p hp
    exact List.lookup_eq_none_iff.mp hl p (h.mem_iff.mpr hp)
  | some v =>
    cases hl' : l'.lookup k with
    | none =>
      have habsent := List.lookup_eq_none_iff.mp hl' (k, v) (h.mem_iff.mp (hmem hl))
      simp at habsent
    | some v' =>
      rw [hunique k v v' (hmem hl) (h.mem_iff.mpr (hmem hl'))]

end Agora
