import Agora.Lib.JsonRoundTrip

namespace Agora

namespace Json

/-!
# Records

Two values are `Apart` if their canonical texts, whatever stands behind them, tell which of the two
it is and where it ends.  Strings are apart, and integers, however many digits they have; and so are
objects with the same keys, if what is under each key is (`apart_obj`).  Hence a record is
determined by its canonical text (`Apart.eq_of_canonical`).
-/

/-- The canonical texts tell the values apart, and where they end. -/
def Apart (i j : Json) : Prop :=
  ∀ {r r' : List Char}, Stops r → Stops r' → i.canonical ++ r = j.canonical ++ r' → i = j ∧ r = r'

theorem Apart.symm {i j : Json} (h : Apart i j) : Apart j i := by
  intro r r' hr hr' heq
  obtain ⟨rfl, rfl⟩ := h hr' hr heq.symm
  exact ⟨rfl, rfl⟩

theorem apart_self (i : Json) : Apart i i := fun _ _ heq => ⟨rfl, List.append_cancel_left heq⟩

/-- Texts that start with other characters. -/
theorem apart_of_head {i j : Json} {c d : Char} {cs ds : List Char} (hi : i.canonical = c :: cs)
    (hj : j.canonical = d :: ds) (hne : c ≠ d) : Apart i j := by
  intro r r' _ _ heq
  rw [hi, hj] at heq
  exact absurd (List.cons.inj heq).1 hne

/-! ### Scalars -/

theorem apart_str (cs ds : List Char) :
    Apart (.str (PyStr.ofChars cs)) (.str (PyStr.ofChars ds)) := by
  intro r r' _ _ heq
  have htext (s : PyStr) (r : List Char) :
      (Json.str s).canonical ++ r = '"' :: (s.flatMap escapePoint ++ '"' :: r) := by
    rw [canonical, stringText, List.cons_append, List.append_assoc]
    rfl
  rw [htext, htext] at heq
  have hread := congrArg unescape (List.cons.inj heq).2
  rw [unescape_string, unescape_string] at hread
  obtain ⟨hs, rfl⟩ := Prod.mk.inj (Except.ok.inj hread)
  exact ⟨by rw [hs], rfl⟩

theorem isDigit_of_mem_toDigits {n : ℕ} {c : Char} (hc : c ∈ Nat.toDigits 10 n) :
    c.isDigit = true :=
  Nat.isDigit_of_mem_toDigits (by decide) (by decide) hc

theorem apart_nat (m n : ℕ) : Apart (.int m) (.int n) := by
  intro r r' hr hr' heq
  have htext (n : ℕ) : (Json.int n).canonical = Nat.toDigits 10 n := rfl
  rw [htext, htext] at heq
  have hdigits := congrArg (List.takeWhile Char.isDigit) heq
  rw [takeWhile_digits (fun _ => isDigit_of_mem_toDigits) hr,
    takeWhile_digits (fun _ => isDigit_of_mem_toDigits) hr'] at hdigits
  rw [hdigits] at heq
  have hn : m = n := by
    have hvalue := congrArg (Nat.ofDigitChars 10 · 0) hdigits
    simpa using hvalue
  exact ⟨by rw [hn], List.append_cancel_left heq⟩

theorem apart_null_nat (n : ℕ) : Apart .null (.int n) := by
  obtain ⟨d, ds, hd⟩ := List.exists_cons_of_ne_nil (Nat.toDigits_ne_nil : Nat.toDigits 10 n ≠ [])
  have hnull : Json.null.canonical = 'n' :: ['u', 'l', 'l'] := rfl
  have hint : (Json.int n).canonical = d :: ds := hd
  apply apart_of_head hnull hint
  rintro rfl
  exact absurd (isDigit_of_mem_toDigits (hd ▸ List.mem_cons_self)) (by decide)

theorem apart_null_str (s : PyStr) : Apart .null (.str s) := apart_of_head rfl rfl (by decide)

/-! ### Objects -/

/-- Members with the same keys. -/
theorem apart_members {zs : List (PyStr × Json × Json)} (h : ∀ z ∈ zs, Apart z.2.1 z.2.2)
    {r r' : List Char}
    (heq : joinComma (zs.map fun z => memberText (z.1, z.2.1.canonical)) ++ '}' :: r
      = joinComma (zs.map fun z => memberText (z.1, z.2.2.canonical)) ++ '}' :: r') :
    (∀ z ∈ zs, z.2.1 = z.2.2) ∧ r = r' := by
  -- The key and the colon are the same in both.
  have hmember {z : PyStr × Json × Json} (hz : Apart z.2.1 z.2.2) {c c' : Char} {cs cs' : List Char}
      (hc : c ∈ [',', '}']) (hc' : c' ∈ [',', '}'])
      (heq : memberText (z.1, z.2.1.canonical) ++ c :: cs
        = memberText (z.1, z.2.2.canonical) ++ c' :: cs') :
      z.2.1 = z.2.2 ∧ c :: cs = c' :: cs' := by
    have hstops {c : Char} (cs : List Char) (hc : c ∈ [',', '}']) : Stops (c :: cs) := by
      apply stops_cons
      simp only [List.mem_cons, List.not_mem_nil, or_false] at hc ⊢
      rcases hc with rfl | rfl
      · exact .inl rfl
      · exact .inr (.inr (.inl rfl))
    unfold memberText at heq
    rw [List.append_assoc, List.append_assoc] at heq
    exact hz (hstops cs hc) (hstops cs' hc') (List.cons.inj (List.append_cancel_left heq)).2
  induction zs with
  | nil => exact ⟨List.forall_mem_nil _, (List.cons.inj heq).2⟩
  | cons z zs ih =>
    obtain ⟨hz, hzs⟩ := List.forall_mem_cons.mp h
    rw [List.forall_mem_cons]
    cases zs with
    | nil =>
      obtain ⟨hvalue, hrest⟩ := hmember hz (by decide) (by decide) heq
      exact ⟨⟨hvalue, List.forall_mem_nil _⟩, (List.cons.inj hrest).2⟩
    | cons z' zs =>
      rw [List.map_cons, List.map_cons, List.map_cons, List.map_cons, joinComma, joinComma,
        List.append_assoc, List.append_assoc] at heq
      obtain ⟨hvalue, hrest⟩ := hmember hz (by decide) (by decide) heq
      obtain ⟨hvalues, hr⟩ := ih hzs (List.cons.inj hrest).2
      exact ⟨⟨hvalue, hvalues⟩, hr⟩

/-- **Objects.**  Objects with the same keys are apart if what is under each key is. -/
theorem apart_obj {zs : List (PyStr × Json × Json)} (h : ∀ z ∈ zs, Apart z.2.1 z.2.2) :
    Apart (.obj (zs.map fun z => (z.1, z.2.1))) (.obj (zs.map fun z => (z.1, z.2.2))) := by
  intro r r' _ _ heq
  have htext (f : Json × Json → Json) (r : List Char) :
      (Json.obj (zs.map fun z => (z.1, f z.2))).canonical ++ r
        = '{' :: (joinComma ((sortByKey zs).map fun z => memberText (z.1, (f z.2).canonical))
          ++ '}' :: r) := by
    rw [canonical, sortByKey_canonicalEntries, sortByKey_map, List.map_map, List.cons_append,
      List.append_assoc]
    rfl
  rw [htext Prod.fst, htext Prod.snd] at heq
  obtain ⟨hvalues, hr⟩ := apart_members (fun z hz => h z ((sortByKey_perm zs).mem_iff.mp hz))
    (List.cons.inj heq).2
  refine ⟨?_, hr⟩
  congr 1
  apply List.map_congr_left
  intro z hz
  rw [hvalues z ((sortByKey_perm zs).mem_iff.mpr hz)]

/-- **Records.**  The fields are read off the canonical text. -/
theorem Apart.eq_of_canonical {i j : Json} (h : Apart i j) (heq : i.canonical = j.canonical) :
    i = j :=
  (h stops_nil stops_nil (congrArg (· ++ []) heq)).1

end Json

end Agora
