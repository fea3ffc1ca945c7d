import Mathlib.Data.List.Sort
import Mathlib.Data.List.Nodup
import Mathlib.Data.Set.Function

namespace Agora

/-!
# Ranking by a key

A list is ranked by a key that tells its elements apart.  The place of an
element is then the number of elements below it (`idxOf_ranked`), so places of two rankings are
compared by comparing what is below (`idxOf_ranked_le`), and the order in which the elements were
given does not matter (`ranked_eq_of_perm`).
-/

section Ranking

variable {ι κ κ' : Type} [LinearOrder κ] [LinearOrder κ'] {key : ι → κ} {key' : ι → κ'}
  {l l' : List ι}

/-- `sorted(l, key=key)`. -/
def ranked (key : ι → κ) (l : List ι) : List ι := l.insertionSort fun a b => key a ≤ key b

theorem ranked_perm (key : ι → κ) (l : List ι) : (ranked key l).Perm l :=
  List.perm_insertionSort _ l

@[simp] theorem mem_ranked {a : ι} : a ∈ ranked key l ↔ a ∈ l := (ranked_perm key l).mem_iff

@[simp] theorem length_ranked (key : ι → κ) (l : List ι) : (ranked key l).length = l.length :=
  (ranked_perm key l).length_eq

theorem nodup_ranked (key : ι → κ) : (ranked key l).Nodup ↔ l.Nodup := (ranked_perm key l).nodup_iff

theorem pairwise_ranked (key : ι → κ) (l : List ι) :
    (ranked key l).Pairwise fun a b => key a ≤ key b := by
  have : Std.Total fun a b : ι => key a ≤ key b := ⟨fun _ _ => le_total _ _⟩
  have : IsTrans ι fun a b => key a ≤ key b := ⟨fun _ _ _ => le_trans⟩
  exact List.pairwise_insertionSort _ l

theorem pairwise_lt_ranked (hkey : Set.InjOn key {a | a ∈ l}) (hl : l.Nodup) :
    (ranked key l).Pairwise fun a b => key a < key b := by
  have hdistinct := List.nodup_iff_pairwise_ne.mp ((nodup_ranked key).mpr hl)
  apply ((pairwise_ranked key l).and hdistinct).imp_of_mem
  intro a b ha hb h
  exact lt_of_le_of_ne h.1 fun hsame => h.2 (hkey (mem_ranked.mp ha) (mem_ranked.mp hb) hsame)

/-- The order in which the elements are given does not matter. -/
theorem ranked_eq_of_perm (hkey : Set.InjOn key {a | a ∈ l}) (h : l.Perm l') :
    ranked key l = ranked key l' := by
  have hperm : (ranked key l).Perm (ranked key l') :=
    (ranked_perm key l).trans (h.trans (ranked_perm key l').symm)
  apply hperm.eq_of_pairwise ?_ (pairwise_ranked key l) (pairwise_ranked key l')
  intro a b ha hb hab hba
  exact hkey (mem_ranked.mp ha) (h.mem_iff.mpr (mem_ranked.mp hb)) (le_antisymm hab hba)

/-- What a filter keeps is ranked as it is among all. -/
theorem ranked_filter (hkey : Set.InjOn key {a | a ∈ l}) (p : ι → Bool) :
    ranked key (l.filter p) = (ranked key l).filter p := by
  have hperm : (ranked key (l.filter p)).Perm ((ranked key l).filter p) :=
    (ranked_perm key _).trans ((ranked_perm key l).symm.filter p)
  apply hperm.eq_of_pairwise ?_ (pairwise_ranked key _) ((pairwise_ranked key l).filter p)
  intro a b ha hb hab hba
  have ha' : a ∈ l := List.mem_of_mem_filter (mem_ranked.mp ha)
  have hb' : b ∈ l := mem_ranked.mp (List.mem_of_mem_filter hb)
  exact hkey ha' hb' (le_antisymm hab hba)

/-! ### Places -/

variable [DecidableEq ι]

/-- The place of an element is the number of elements below it. -/
theorem idxOf_ranked (hkey : Set.InjOn key {a | a ∈ l}) (hl : l.Nodup) {a : ι} (ha : a ∈ l) :
    (ranked key l).idxOf a = l.countP fun b => key b < key a := by
  have hmem : a ∈ ranked key l := mem_ranked.mpr ha
  obtain ⟨below, above, hsplit⟩ := List.append_of_mem hmem
  have hsorted := pairwise_lt_ranked hkey hl
  rw [hsplit, List.pairwise_append, List.pairwise_cons] at hsorted
  obtain ⟨-, ⟨habove, -⟩, hbelow⟩ := hsorted
  have hlow : ∀ b ∈ below, key b < key a := fun b hb => hbelow b hb a List.mem_cons_self
  have hnot : a ∉ below := fun hmem => lt_irrefl _ (hlow a hmem)
  rw [← (ranked_perm key l).countP_eq, hsplit, List.idxOf_append_of_notMem hnot,
    List.idxOf_cons_self, Nat.add_zero, List.countP_append]
  have hfull : below.countP (fun b => key b < key a) = below.length := by
    rw [List.countP_eq_length]
    intro b hb
    exact decide_eq_true (hlow b hb)
  have hempty : (a :: above).countP (fun b => key b < key a) = 0 := by
    rw [List.countP_eq_zero]
    intro b hb
    rw [decide_eq_true_eq, not_lt]
    rcases List.mem_cons.mp hb with rfl | hb
    · exact le_refl _
    · exact le_of_lt (habove b hb)
  rw [hfull, hempty, Nat.add_zero]

/-- An element that has no more below it than before is not ranked lower than before. -/
theorem idxOf_ranked_le (hkey : Set.InjOn key {a | a ∈ l}) (hkey' : Set.InjOn key' {a | a ∈ l})
    (hl : l.Nodup) (hperm : l'.Perm l) {a : ι} (ha : a ∈ l)
    (h : ∀ b ∈ l, key' b < key' a → key b < key a) :
    (ranked key' l').idxOf a ≤ (ranked key l).idxOf a := by
  rw [← ranked_eq_of_perm hkey' hperm.symm, idxOf_ranked hkey' hl ha, idxOf_ranked hkey hl ha]
  apply List.countP_mono_left
  intro b hb hbelow
  exact decide_eq_true (h b hb (of_decide_eq_true hbelow))

/-- What has a lower key comes first. -/
theorem idxOf_ranked_lt (hkey : Set.InjOn key {a | a ∈ l}) (hl : l.Nodup) {a b : ι} (ha : a ∈ l)
    (h : key a < key b) : (ranked key l).idxOf a < (ranked key l).idxOf b := by
  by_cases hb : b ∈ l
  · have ha' : a ∈ ranked key l := mem_ranked.mpr ha
    obtain ⟨below, above, hsplit⟩ := List.append_of_mem ha'
    have hsorted := pairwise_lt_ranked hkey hl
    have hnodup := (nodup_ranked key).mpr hl
    rw [hsplit] at hsorted hnodup ⊢
    have hmem : b ∈ below ++ a :: above := by
      rw [← hsplit]
      exact mem_ranked.mpr hb
    -- what stands before `a` has a lower key
    have hnot : b ∉ below := by
      intro hlow
      have hlt := (List.pairwise_append.mp hsorted).2.2 b hlow a List.mem_cons_self
      exact lt_asymm h hlt
    have hself : a ∉ below := by
      intro hlow
      exact (List.nodup_append.mp hnodup).2.2 a hlow a List.mem_cons_self rfl
    rw [List.idxOf_append_of_notMem hself, List.idxOf_append_of_notMem hnot, List.idxOf_cons_self,
      List.idxOf_cons_ne _ (fun hsame => lt_irrefl _ (hsame ▸ h))]
    omega
  · have hlast : (ranked key l).idxOf b = (ranked key l).length :=
      List.idxOf_eq_length_iff.mpr fun hmem => hb (mem_ranked.mp hmem)
    rw [hlast]
    exact List.idxOf_lt_length_of_mem (mem_ranked.mpr ha)

end Ranking

end Agora
