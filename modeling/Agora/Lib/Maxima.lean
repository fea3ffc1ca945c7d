import Mathlib.Data.List.Forall2
import Mathlib.Data.List.Sort
import Mathlib.Order.Basic

namespace Agora

/-!
# Maxima of a list

In a finite list, every element is maximal or below a maximal element, for a relation that is
irreflexive and transitive on the list (`exists_maximal_above`).  Of several splits of a list at an
element, one comes first (`split_cases`).  A stable descending sort starts with the first element of
the largest key (`firstMax_of_insertionSort`), which stays in front when its own key is raised and
the other ones are not (`FirstMax.forall₂`).
-/

/-- Two elements at which a list is split: the same one, or one is before the other. -/
theorem split_cases {α : Type} {before before' after after' : List α} {x y : α}
    (h : before ++ x :: after = before' ++ y :: after') :
    (before = before' ∧ x = y ∧ after = after') ∨ (x ∈ before' ∧ y ∈ after)
      ∨ (y ∈ before ∧ x ∈ after') := by
  rcases List.append_eq_append_iff.mp h with ⟨middle, rfl, hmiddle⟩ | ⟨middle, rfl, hmiddle⟩
  · cases middle with
    | nil =>
      obtain ⟨rfl, rfl⟩ := List.cons.inj hmiddle
      simp
    | cons z middle =>
      obtain ⟨rfl, rfl⟩ := List.cons.inj hmiddle
      simp
  · cases middle with
    | nil =>
      obtain ⟨rfl, rfl⟩ := List.cons.inj hmiddle
      simp
    | cons z middle =>
      obtain ⟨rfl, rfl⟩ := List.cons.inj hmiddle
      simp

section First

variable {α α' β : Type} [LinearOrder β] {key : α → β} {l : List α} {x y : α}

/-- The first element with the largest key. -/
def FirstMax (key : α → β) (l : List α) (x : α) : Prop :=
  ∃ before after, l = before ++ x :: after ∧ (∀ a ∈ before, key a < key x)
    ∧ ∀ a ∈ after, key a ≤ key x

theorem FirstMax.le (h : FirstMax key l x) : ∀ a ∈ l, key a ≤ key x := by
  obtain ⟨before, after, rfl, hbefore, hafter⟩ := h
  intro a ha
  rcases List.mem_append.mp ha with ha | ha
  · exact (hbefore a ha).le
  · rcases List.mem_cons.mp ha with rfl | ha
    · exact le_rfl
    · exact hafter a ha

theorem FirstMax.unique (h : FirstMax key l x) (h' : FirstMax key l y) : x = y := by
  obtain ⟨before, after, rfl, hbefore, hafter⟩ := h
  obtain ⟨before', after', hsplit, hbefore', hafter'⟩ := h'
  rcases split_cases hsplit with ⟨-, rfl, -⟩ | ⟨hx, hy⟩ | ⟨hy, hx⟩
  · rfl
  · exact absurd (hbefore' x hx) (hafter y hy).not_gt
  · exact absurd (hbefore y hy) (hafter' x hx).not_gt

/-- A stable descending sort starts with the first maximum. -/
theorem firstMax_of_insertionSort {r : α → α → Prop} [DecidableRel r]
    (hr : ∀ a b, r a b ↔ key b ≤ key a) {rest : List α} (h : l.insertionSort r = x :: rest) :
    FirstMax key l x := by
  induction l generalizing x rest with
  | nil => cases h
  | cons b l ih =>
    rw [List.insertionSort_cons] at h
    cases hsort : l.insertionSort r with
    | nil =>
      have hnil : l = [] := by
        rw [← List.length_eq_zero_iff, ← List.length_insertionSort r, hsort, List.length_nil]
      rw [hsort, List.orderedInsert_nil] at h
      obtain ⟨rfl, -⟩ := List.cons.inj h
      exact ⟨[], [], by rw [hnil, List.nil_append], List.forall_mem_nil _, List.forall_mem_nil _⟩
    | cons y ys =>
      have hmax := ih hsort
      rw [hsort, List.orderedInsert_cons] at h
      by_cases hby : r b y
      · rw [if_pos hby] at h
        obtain ⟨rfl, -⟩ := List.cons.inj h
        refine ⟨[], l, rfl, List.forall_mem_nil _, fun a ha => ?_⟩
        exact (hmax.le a ha).trans ((hr b y).mp hby)
      · rw [if_neg hby] at h
        obtain ⟨rfl, -⟩ := List.cons.inj h
        obtain ⟨before, after, rfl, hbefore, hafter⟩ := hmax
        refine ⟨b :: before, after, rfl, ?_, hafter⟩
        rw [List.forall_mem_cons]
        exact ⟨not_le.mp fun hle => hby ((hr b y).mpr hle), hbefore⟩

/-- And a first maximum comes first. -/
theorem FirstMax.insertionSort {r : α → α → Prop} [DecidableRel r]
    (hr : ∀ a b, r a b ↔ key b ≤ key a) (h : FirstMax key l x) :
    ∃ rest, l.insertionSort r = x :: rest := by
  cases hsort : l.insertionSort r with
  | nil =>
    obtain ⟨before, after, rfl, -⟩ := h
    have hmem : x ∈ (before ++ x :: after).insertionSort r :=
      (List.mem_insertionSort r).mpr (by simp)
    rw [hsort] at hmem
    cases hmem
  | cons y ys => exact ⟨ys, by rw [h.unique (firstMax_of_insertionSort hr hsort)]⟩

/-- Lists related element by element are split in the same places. -/
theorem exists_split_of_forall₂ {R : α → α' → Prop} {before after : List α} {l' : List α'}
    (h : List.Forall₂ R (before ++ x :: after) l') :
    ∃ before' x' after', l' = before' ++ x' :: after' ∧ List.Forall₂ R before before' ∧ R x x'
      ∧ List.Forall₂ R after after' := by
  induction before generalizing l' with
  | nil =>
    cases h with
    | cons hx hafter => exact ⟨[], _, _, rfl, .nil, hx, hafter⟩
  | cons a before ih =>
    cases h with
    | cons ha hrest =>
      obtain ⟨before', x', after', rfl, hbefore, hx, hafter⟩ := ih hrest
      exact ⟨_ :: before', x', after', rfl, .cons ha hbefore, hx, hafter⟩

theorem exists_of_mem_forall₂ {R : α → α' → Prop} {l' : List α'} (h : List.Forall₂ R l l') {a' : α'}
    (ha : a' ∈ l') : ∃ a ∈ l, R a a' := by
  induction h with
  | nil => cases ha
  | @cons a b l l' hab _ ih =>
    rcases List.mem_cons.mp ha with rfl | ha
    · exact ⟨a, List.mem_cons_self, hab⟩
    · obtain ⟨a, hmem, hR⟩ := ih ha
      exact ⟨a, List.mem_cons_of_mem _ hmem, hR⟩

/-- What holds of any two elements holds of what corresponds to them. -/
theorem pairwise_of_forall₂ {R : α → α' → Prop} {S : α → α → Prop} {T : α' → α' → Prop} {l' : List α'}
    (hS : l.Pairwise S) (h : List.Forall₂ R l l')
    (hT : ∀ a b a' b', R a a' → R b b' → S a b → T a' b') : l'.Pairwise T := by
  induction h with
  | nil => exact List.Pairwise.nil
  | cons hab hrest ih =>
    obtain ⟨hfirst, hS⟩ := List.pairwise_cons.mp hS
    refine List.Pairwise.cons (fun b' hb' => ?_) (ih hS)
    obtain ⟨b, hb, hR⟩ := exists_of_mem_forall₂ hrest hb'
    exact hT _ b _ b' hab hR (hfirst b hb)

/-- A first maximum stays one when its own key is raised and no other one is. -/
theorem FirstMax.forall₂ {R : α → α' → Prop} {key' : α' → β} {l' : List α'}
    (h : FirstMax key l x) (hl : l.Nodup) (hR : List.Forall₂ R l l')
    (hself : ∀ x', R x x' → key x ≤ key' x')
    (hother : ∀ a ∈ l, a ≠ x → ∀ a', R a a' → key' a' ≤ key a) :
    ∃ x', R x x' ∧ FirstMax key' l' x' := by
  obtain ⟨before, after, rfl, hbefore, hafter⟩ := h
  obtain ⟨before', x', after', rfl, hRbefore, hx, hRafter⟩ := exists_split_of_forall₂ hR
  have hraised := hself x' hx
  rw [List.nodup_middle, List.nodup_cons] at hl
  refine ⟨x', hx, before', after', rfl, fun a' ha' => ?_, fun a' ha' => ?_⟩
  · obtain ⟨a, ha, haa'⟩ := exists_of_mem_forall₂ hRbefore ha'
    have hne : a ≠ x := fun heq => hl.1 (heq ▸ List.mem_append_left _ ha)
    exact (hother a (by simp [ha]) hne a' haa').trans_lt ((hbefore a ha).trans_le hraised)
  · obtain ⟨a, ha, haa'⟩ := exists_of_mem_forall₂ hRafter ha'
    have hne : a ≠ x := fun heq => hl.1 (heq ▸ List.mem_append_right _ ha)
    exact (hother a (by simp [ha]) hne a' haa').trans ((hafter a ha).trans hraised)

end First

section Above

variable {α : Type} {l : List α} {r : α → α → Prop}

open Classical in
/-- An element above another one has fewer elements above it. -/
theorem length_above_lt (hirrefl : ∀ a ∈ l, ¬ r a a)
    (htrans : ∀ a ∈ l, ∀ b ∈ l, ∀ c ∈ l, r a b → r b c → r a c) {a b : α} (ha : a ∈ l) (hb : b ∈ l)
    (hab : r b a) : (l.filter fun c => r c b).length < (l.filter fun c => r c a).length := by
  have hfilter : l.filter (fun c => r c b) = (l.filter fun c => r c a).filter fun c => r c b := by
    rw [List.filter_filter]
    apply List.filter_congr
    intro c hc
    rw [← Bool.decide_and, decide_eq_decide]
    exact (and_iff_left_of_imp fun hcb => htrans c hc b hb a ha hcb hab).symm
  rw [hfilter, List.length_filter_lt_length_iff_exists]
  exact ⟨b, List.mem_filter.mpr ⟨hb, decide_eq_true hab⟩, by simpa using hirrefl b hb⟩

open Classical in
/-- **Maximal elements.**  Every element is maximal or below a maximal one. -/
theorem exists_maximal_above (hirrefl : ∀ a ∈ l, ¬ r a a)
    (htrans : ∀ a ∈ l, ∀ b ∈ l, ∀ c ∈ l, r a b → r b c → r a c) {a : α} (ha : a ∈ l) :
    ∃ b ∈ l, (b = a ∨ r b a) ∧ ∀ c ∈ l, ¬ r c b := by
  induction hn : (l.filter fun c => r c a).length using Nat.strongRecOn generalizing a with
  | ind n ih =>
    by_cases hmaximal : ∀ c ∈ l, ¬ r c a
    · exact ⟨a, ha, Or.inl rfl, hmaximal⟩
    · push Not at hmaximal
      obtain ⟨b, hb, hab⟩ := hmaximal
      have hless := length_above_lt hirrefl htrans ha hb hab
      obtain ⟨c, hc, habove, hmaximal⟩ := ih _ (hn ▸ hless) hb rfl
      refine ⟨c, hc, Or.inr ?_, hmaximal⟩
      rcases habove with rfl | hcb
      · exact hab
      · exact htrans c hc b hb a ha hcb hab

end Above

end Agora
