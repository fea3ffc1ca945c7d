import Agora.Lib.Text

namespace Agora

/-!
# Words of a part of a text

A line break ends a word, so the words of two lines are the words of the first and then those of the second
(`finditer_append_newline`).  The part of a text from the start of one word to the end of another has
exactly the words between them (`length_finditer_slice`).
-/

/-! ### Lines -/

/-- The words of a text that starts later. -/
theorem finditerFrom_shift (k : ℕ) (cs : List Char) (start : Option ℕ) (i : ℕ) :
    finditerFrom (start.map (k + ·)) (k + i) cs
      = (finditerFrom start i cs).map fun s => (k + s.1, k + s.2) := by
  induction cs generalizing start i with
  | nil => cases start <;> rfl
  | cons c cs ih =>
    have hnone := ih none (i + 1)
    have hsome := ih (some (start.getD i)) (i + 1)
    rw [finditerFrom, finditerFrom]
    split_ifs
    · rw [List.map_append, ← hnone]
      cases start <;> rfl
    · rw [← hsome]
      cases start <;> rfl

theorem length_finditerFrom_none (i : ℕ) (cs : List Char) :
    (finditerFrom none i cs).length = (finditer cs).length := by
  have h := finditerFrom_shift i cs none 0
  rw [Nat.add_zero] at h
  show (finditerFrom (Option.map (i + ·) none) i cs).length = _
  rw [h, List.length_map]
  rfl

/-- Whitespace ends a word. -/
theorem finditerFrom_append {c : Char} (hc : isSpace c = true) (xs ys : List Char) (start : Option ℕ) (i : ℕ) :
    finditerFrom start i (xs ++ c :: ys)
      = finditerFrom start i xs ++ finditerFrom none (i + xs.length + 1) ys := by
  induction xs generalizing start i with
  | nil =>
    show (if isSpace c = true then _ else _) = _
    exact if_pos hc
  | cons x xs ih =>
    have hlength : i + (x :: xs).length + 1 = i + 1 + xs.length + 1 := by
      rw [List.length_cons]
      omega
    rw [List.cons_append, finditerFrom, finditerFrom, hlength]
    split_ifs
    · rw [ih, List.append_assoc]
    · exact ih _ _

/-- **Lines.**  The words of two lines. -/
theorem finditer_append_newline (before cs : List Char) :
    (finditer (before ++ '\n' :: cs)).length = (finditer before).length + (finditer cs).length := by
  unfold finditer
  rw [finditerFrom_append (by decide), List.length_append, length_finditerFrom_none (0 + before.length + 1)]
  rfl

/-! ### Parts -/

theorem le_end_of_mem_finditerFrom {cs : List Char} {start : Option ℕ} {i : ℕ} {s : ℕ × ℕ}
    (h : s ∈ finditerFrom start i cs) : i ≤ s.2 := by
  induction cs generalizing start i with
  | nil =>
    obtain ⟨b, -, rfl⟩ := List.mem_map.mp h
    exact Nat.le_refl i
  | cons c cs ih =>
    rw [finditerFrom] at h
    split_ifs at h
    · rcases List.mem_append.mp h with h | h
      · obtain ⟨b, -, rfl⟩ := List.mem_map.mp h
        exact Nat.le_refl i
      · exact Nat.le_of_succ_le (ih h)
    · exact Nat.le_of_succ_le (ih h)

/-- Up to the end of a word, the text has the words up to this one. -/
theorem finditerFrom_take {cs : List Char} {start : Option ℕ} {i j : ℕ} {s : ℕ × ℕ}
    (h : (finditerFrom start i cs)[j]? = some s) :
    finditerFrom start i (cs.take (s.2 - i)) = (finditerFrom start i cs).take (j + 1) := by
  induction cs generalizing start i j with
  | nil =>
    rw [List.take_nil, List.take_of_length_le]
    cases start <;> simp [finditerFrom]
  | cons c cs ih =>
    have htake (hle : i + 1 ≤ s.2) : (c :: cs).take (s.2 - i) = c :: cs.take (s.2 - (i + 1)) := by
      have hindex : s.2 - i = s.2 - (i + 1) + 1 := by omega
      rw [hindex, List.take_succ_cons]
    rw [finditerFrom] at h ⊢
    split_ifs at h ⊢ with hspace
    · cases start with
      | none =>
        rw [htake (le_end_of_mem_finditerFrom (List.mem_of_getElem? h)), finditerFrom, if_pos hspace]
        exact ih h
      | some b =>
        cases j with
        | zero =>
          -- The word has ended before this character.
          obtain rfl := Option.some.inj h
          show finditerFrom (some b) i ((c :: cs).take (i - i)) = _
          rw [Nat.sub_self]
          rfl
        | succ j =>
          have hrest : (finditerFrom none (i + 1) cs)[j]? = some s := h
          rw [htake (le_end_of_mem_finditerFrom (List.mem_of_getElem? hrest)), finditerFrom, if_pos hspace,
            ih hrest]
          rfl
    · rw [htake (le_end_of_mem_finditerFrom (List.mem_of_getElem? h)), finditerFrom, if_neg hspace]
      exact ih h

/-- From the start of a word on, the text has the words from this one on. -/
theorem finditerFrom_drop {cs : List Char} {start : Option ℕ} {i j : ℕ} {s : ℕ × ℕ}
    (h : (finditerFrom start i cs)[j]? = some s) (hstart : ∀ b ∈ start, b < i) (hi : i ≤ s.1) :
    finditerFrom none s.1 (cs.drop (s.1 - i)) = (finditerFrom start i cs).drop j := by
  induction cs generalizing start i j with
  | nil =>
    obtain ⟨b, hb, rfl⟩ := List.mem_map.mp (List.mem_of_getElem? h)
    exact absurd (hstart b (Option.mem_toList.mp hb)) (Nat.not_lt_of_le hi)
  | cons c cs ih =>
    have hdrop (hle : i + 1 ≤ s.1) : (c :: cs).drop (s.1 - i) = cs.drop (s.1 - (i + 1)) := by
      have hindex : s.1 - i = s.1 - (i + 1) + 1 := by omega
      rw [hindex, List.drop_succ_cons]
    have hnone : ∀ b ∈ (none : Option ℕ), b < i + 1 := fun b hb => absurd hb (Option.not_mem_none b)
    have hwithin := @within_finditerFrom (c :: cs) start i hstart
    rw [finditerFrom] at h hwithin ⊢
    split_ifs at h hwithin ⊢ with hspace
    · have hlater : ∀ k, (finditerFrom none (i + 1) cs)[k]? = some s → i + 1 ≤ s.1 := fun k hk =>
        ((@within_finditerFrom cs none (i + 1) hnone).mem (List.mem_of_getElem? hk)).1
      cases start with
      | none =>
        have hrest : (finditerFrom none (i + 1) cs)[j]? = some s := h
        rw [hdrop (hlater j hrest)]
        exact ih hrest hnone (hlater j hrest)
      | some b =>
        cases j with
        | zero =>
          obtain rfl := Option.some.inj h
          exact absurd (hstart b rfl) (Nat.not_lt_of_le hi)
        | succ j =>
          have hrest : (finditerFrom none (i + 1) cs)[j]? = some s := h
          rw [hdrop (hlater j hrest)]
          exact ih hrest hnone (hlater j hrest)
    · have hsome : ∀ b ∈ some (start.getD i), b < i + 1 := by
        intro b hb
        obtain rfl := Option.mem_some_iff.mp hb
        cases start with
        | none => exact Nat.lt_succ_self i
        | some b => exact Nat.lt_succ_of_lt (hstart b rfl)
      rcases Nat.lt_or_eq_of_le hi with hlt | heq
      · rw [hdrop hlt]
        exact ih h hsome hlt
      · -- The word starts at this character, so it is the first one.
        rcases exists_first_of_mem_finditerFrom cs (List.mem_of_getElem? h) with hfirst | ⟨hle, -⟩
        · have hfresh : start = none := by
            cases start with
            | none => rfl
            | some b =>
              have hb : b = s.1 := Option.some.inj hfirst
              exact absurd (hstart b rfl) (by omega)
          subst hfresh
          have hzero : j = 0 := by
            by_contra hne
            have hj := (List.getElem?_eq_some_iff.mp h).1
            have hs := (List.getElem?_eq_some_iff.mp h).2
            have hbefore := List.pairwise_iff_getElem.mp hwithin.pairwise 0 j (by omega) hj (by omega)
            have hmem : i ≤ _ ∧ _ := hwithin.mem (List.getElem_mem (Nat.zero_lt_of_lt hj))
            rw [hs] at hbefore
            omega
          rw [hzero, ← heq, Nat.sub_self, List.drop_zero, List.drop_zero, finditerFrom, if_neg hspace]
        · omega

/-- **Parts.**  The part from the start of the word `i` to the end of the word before `j` has the words
    between them. -/
theorem length_finditer_slice (cs : List Char) {i j : ℕ} (hij : i < j) (hj : j ≤ (finditer cs).length) :
    (finditer (slice cs ((finditer cs).getD i (0, 0)).1 ((finditer cs).getD (j - 1) (0, 0)).2)).length
      = j - i := by
  have hi : i < (finditer cs).length := by omega
  have hlast : (finditer cs)[j - 1]? = some ((finditer cs).getD (j - 1) (0, 0)) := by
    rw [List.getD_eq_getElem _ _ (by omega), List.getElem?_eq_getElem]
  have htake := finditerFrom_take hlast
  have hfirst : (finditerFrom none 0 (cs.take (((finditer cs).getD (j - 1) (0, 0)).2 - 0)))[i]?
      = some ((finditer cs).getD i (0, 0)) := by
    rw [htake, List.getElem?_take_of_lt (by omega), List.getD_eq_getElem _ _ hi]
    exact List.getElem?_eq_getElem hi
  have hdrop := finditerFrom_drop hfirst (fun b hb => absurd hb (Option.not_mem_none b)) (Nat.zero_le _)
  rw [htake] at hdrop
  have hlength := congrArg List.length hdrop
  rw [length_finditerFrom_none, List.length_drop, List.length_take] at hlength
  show (finditer ((cs.take _).drop _)).length = _
  rw [Nat.sub_zero, Nat.sub_zero] at hlength
  rw [hlength]
  show min (j - 1 + 1) (finditer cs).length - i = _
  omega

end Agora
