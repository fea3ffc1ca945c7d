import Agora.Lib.JsonRoundTrip
import Mathlib.Data.List.Perm.Subperm

namespace Agora

/-!
# The order of object keys

Keys without surrogates are totally ordered by their UTF-16 code units (`utf16Key_injective`), so
sorting forgets the order of a dictionary and nothing else (`sortByKey_eq_iff`).  Canonical texts
are therefore equal exactly when the values are with their keys sorted (`canonical_eq_iff`).
-/

/-! ### UTF-16 code units -/

theorem isScalar_cons {p : CodePoint} {s : PyStr} (h : Json.isScalar (p :: s) = true) :
    ∃ c, p = .scalar c ∧ Json.isScalar s = true := by
  cases p with
  | scalar c =>
    refine ⟨c, rfl, ?_⟩
    unfold Json.isScalar at h ⊢
    rwa [PyStr.chars?, Option.isSome_map] at h
  | surrogate n => simp [Json.isScalar, PyStr.chars?] at h

/-- A character is no surrogate and at most `0x10FFFF`. -/
theorem toNat_char (c : Char) : c.toNat < 0xD800 ∨ 0xDFFF < c.toNat ∧ c.toNat < 0x110000 :=
  c.valid

/-- The code units of a character can be told from what follows them. -/
theorem utf16_append_inj {c d : Char} {u v : List ℕ}
    (h : (CodePoint.scalar c).utf16 ++ u = (CodePoint.scalar d).utf16 ++ v) : c = d ∧ u = v := by
  have hc := toNat_char c
  have hd := toNat_char d
  simp only [CodePoint.utf16] at h
  split_ifs at h
  -- One unit on both sides, or two on both; a first surrogate is no character.
  · simp only [List.cons_append, List.nil_append, List.cons.injEq] at h
    exact ⟨Char.toNat_inj.mp h.1, h.2⟩
  · simp only [List.cons_append, List.nil_append, List.cons.injEq] at h
    omega
  · simp only [List.cons_append, List.nil_append, List.cons.injEq] at h
    omega
  · simp only [List.cons_append, List.nil_append, List.cons.injEq] at h
    refine ⟨Char.toNat_inj.mp ?_, h.2.2⟩
    omega

/-- **Keys.**  The code units of a key without surrogates determine it. -/
theorem utf16Key_injective {s t : PyStr} (hs : Json.isScalar s = true)
    (ht : Json.isScalar t = true) (h : utf16Key s = utf16Key t) : s = t := by
  have hne (c : Char) (u : List ℕ) : (CodePoint.scalar c).utf16 ++ u ≠ [] := by
    simp only [CodePoint.utf16]
    split_ifs <;> simp
  induction s generalizing t with
  | nil =>
    cases t with
    | nil => rfl
    | cons q t =>
      obtain ⟨d, rfl, -⟩ := isScalar_cons ht
      exact absurd h.symm (hne d _)
  | cons p s ih =>
    obtain ⟨c, rfl, hscalar⟩ := isScalar_cons hs
    cases t with
    | nil => exact absurd h (hne c _)
    | cons q t =>
      obtain ⟨d, rfl, hscalar'⟩ := isScalar_cons ht
      obtain ⟨rfl, hrest⟩ := utf16_append_inj h
      rw [ih hscalar hscalar' hrest]

theorem keyLe_antisymm {a b : PyStr} (ha : Json.isScalar a = true) (hb : Json.isScalar b = true)
    (hab : keyLe a b = true) (hba : keyLe b a = true) : a = b := by
  simp only [keyLe, decide_eq_true_eq] at hab hba
  exact utf16Key_injective ha hb (le_antisymm hab hba)

/-! ### Sorting a dictionary -/

section Sorting

variable {α : Type} {es fs : List (PyStr × α)}

theorem sortByKey_sortByKey (es : List (PyStr × α)) : sortByKey (sortByKey es) = sortByKey es :=
  (pairwise_sortByKey es).insertionSort_eq

/-- Sorting forgets the order of the entries. -/
theorem sortByKey_eq_of_perm (hperm : es.Perm fs) (hnodup : (es.map Prod.fst).Nodup)
    (hscalar : ∀ e ∈ es, Json.isScalar e.1 = true) : sortByKey es = sortByKey fs := by
  have hsorted : (sortByKey es).Perm (sortByKey fs) :=
    ((sortByKey_perm es).trans hperm).trans (sortByKey_perm fs).symm
  refine hsorted.eq_of_pairwise ?_ (pairwise_sortByKey es) (pairwise_sortByKey fs)
  intro a b ha hb hab hba
  have ha : a ∈ es := (sortByKey_perm es).mem_iff.mp ha
  have hb : b ∈ es := hperm.mem_iff.mpr ((sortByKey_perm fs).mem_iff.mp hb)
  exact List.inj_on_of_nodup_map hnodup ha hb (keyLe_antisymm (hscalar a ha) (hscalar b hb) hab hba)

/-- **Dictionaries.**  They are equal when sorted exactly when they have the same number of entries
    and every entry of one is in the other. -/
theorem sortByKey_eq_iff (hnodup : (es.map Prod.fst).Nodup)
    (hscalar : ∀ e ∈ es, Json.isScalar e.1 = true) :
    sortByKey es = sortByKey fs ↔ es.length = fs.length ∧ ∀ e ∈ es, e ∈ fs := by
  constructor
  · intro h
    have hperm : es.Perm fs := by
      apply (sortByKey_perm es).symm.trans
      rw [h]
      exact sortByKey_perm fs
    exact ⟨hperm.length_eq, fun e => hperm.mem_iff.mp⟩
  · rintro ⟨hlength, hsub⟩
    have hsubperm := hnodup.of_map.subperm hsub
    exact sortByKey_eq_of_perm (hsubperm.perm_of_length_le hlength.ge) hnodup hscalar

end Sorting

/-! ### Normal forms -/

namespace Json

mutual
/-- The canonical text sorts the keys itself. -/
theorem canonical_normalize : ∀ j : Json, j.normalize.canonical = j.canonical
  | .null | .bool _ | .int _ | .float _ _ | .str _ => rfl
  | .arr items => by
    show canonical (.arr (mapItems sortByKey items)) = _
    rw [canonical, canonical, canonicalItems_mapItems items]
  | .obj entries => by
    show canonical (.obj (sortByKey (mapEntries sortByKey entries))) = _
    rw [canonical, canonical, sortByKey_canonicalEntries, sortByKey_canonicalEntries,
      sortByKey_sortByKey, sortByKey_mapEntries, List.map_map]
    congr 3
    refine List.map_congr_left fun e he => ?_
    show memberText (e.1, e.2.normalize.canonical) = _
    rw [canonical_normalize_entries entries e ((sortByKey_perm entries).mem_iff.mp he)]
theorem canonicalItems_mapItems : ∀ items : List Json,
    canonicalItems (mapItems sortByKey items) = canonicalItems items
  | [] => rfl
  | j :: items => by
    rw [mapItems, canonicalItems, canonicalItems, canonicalItems_mapItems items]
    congr 1
    exact canonical_normalize j
theorem canonical_normalize_entries : ∀ entries : List (PyStr × Json),
    ∀ e ∈ entries, e.2.normalize.canonical = e.2.canonical
  | [] => by simp
  | (_, v) :: entries =>
    List.forall_mem_cons.mpr ⟨canonical_normalize v, canonical_normalize_entries entries⟩
end

theorem encodableEntries_iff {entries : List (PyStr × Json)} :
    encodableEntries entries = true ↔ ∀ e ∈ entries, isScalar e.1 = true ∧ e.2.encodable = true := by
  induction entries with
  | nil => simp [encodableEntries]
  | cons e entries ih => simp [encodableEntries, ih]

theorem depthEntries_le_iff {entries : List (PyStr × Json)} {n : ℕ} :
    depthEntries entries ≤ n ↔ ∀ e ∈ entries, e.2.depth ≤ n := by
  induction entries with
  | nil => simp [depthEntries]
  | cons e entries ih => simp [depthEntries, ih]

/-- The members of an object with its keys sorted. -/
theorem forall_mem_normalize {entries : List (PyStr × Json)} {p : PyStr × Json → Prop} :
    (∀ e ∈ sortByKey (mapEntries sortByKey entries), p e) ↔ ∀ e ∈ entries, p (e.1, e.2.normalize) := by
  rw [sortByKey_mapEntries, List.forall_mem_map]
  exact forall_congr' fun e => imp_congr_left (sortByKey_perm entries).mem_iff

mutual
theorem encodable_normalize : ∀ j : Json, j.encodable = true → j.normalize.encodable = true
  | .null, h | .bool _, h | .int _, h | .float _ _, h | .str _, h => h
  | .arr items, h => encodableItems_mapItems items h
  | .obj entries, h => by
    show encodableEntries (sortByKey (mapEntries sortByKey entries)) = true
    apply encodableEntries_iff.mpr
    exact forall_mem_normalize.mpr (encodable_normalize_entries entries h)
theorem encodableItems_mapItems : ∀ items : List Json, encodableItems items = true →
    encodableItems (mapItems sortByKey items) = true
  | [], _ => rfl
  | j :: items, h => by
    rw [encodableItems, Bool.and_eq_true] at h
    rw [mapItems, encodableItems, encodableItems_mapItems items h.2, Bool.and_true]
    exact encodable_normalize j h.1
theorem encodable_normalize_entries : ∀ entries : List (PyStr × Json),
    encodableEntries entries = true →
      ∀ e ∈ entries, isScalar e.1 = true ∧ e.2.normalize.encodable = true
  | [], _ => by simp
  | (_, v) :: entries, h => by
    rw [encodableEntries, Bool.and_eq_true, Bool.and_eq_true] at h
    exact List.forall_mem_cons.mpr
      ⟨⟨h.1.1, encodable_normalize v h.1.2⟩, encodable_normalize_entries entries h.2⟩
end

mutual
theorem depth_normalize : ∀ j : Json, j.normalize.depth ≤ j.depth
  | .null | .bool _ | .int _ | .float _ _ | .str _ => le_rfl
  | .arr items => Nat.succ_le_succ (depthItems_mapItems items)
  | .obj entries => by
    show depthEntries (sortByKey (mapEntries sortByKey entries)) + 1 ≤ depthEntries entries + 1
    apply Nat.succ_le_succ
    apply depthEntries_le_iff.mpr
    exact forall_mem_normalize.mpr (depth_normalize_entries entries)
theorem depthItems_mapItems : ∀ items : List Json,
    depthItems (mapItems sortByKey items) ≤ depthItems items
  | [] => le_rfl
  | j :: items => max_le_max (depth_normalize j) (depthItems_mapItems items)
theorem depth_normalize_entries : ∀ entries : List (PyStr × Json),
    ∀ e ∈ entries, e.2.normalize.depth ≤ depthEntries entries
  | [] => by simp
  | (k, v) :: entries => by
    refine List.forall_mem_cons.mpr ⟨(depth_normalize v).trans (le_max_left _ _), fun e he => ?_⟩
    exact (depth_normalize_entries entries e he).trans (le_max_right _ _)
end

/-- **Canonical texts.**  They are equal exactly when the values are, with their keys sorted. -/
theorem canonical_eq_iff {i j : Json} (hi : i.encodable = true) (hj : j.encodable = true)
    (hki : i.uniqueKeys = true) (hkj : j.uniqueKeys = true) :
    i.canonical = j.canonical ↔ i.normalize = j.normalize := by
  constructor
  · intro h
    have hread := loads_canonical hi hki (le_max_left i.depth j.depth) (.inl rfl)
    rw [h, loads_canonical hj hkj (le_max_right i.depth j.depth) (.inl rfl)] at hread
    exact (Except.ok.inj hread).symm
  · intro h
    rw [← canonical_normalize i, h, canonical_normalize]

end Json

end Agora
