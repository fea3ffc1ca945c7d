import Mathlib.Data.List.Infix

namespace Agora

/-!
# Replacing texts in a text

`replaceAll` replaces the occurrences of a text from left to right, as `str.replace` does.  When no
occurrence of a text can touch what is put in its place (`Barrier`), none is left (`not_infix_replaceAll`);
and replacing several texts one after the other, in any order, leaves none of them
(`not_infix_replaceEach`).
-/

variable {α : Type} [DecidableEq α] {old new l t : List α}

/-! ### Replacement -/

/-- The first `skip` elements belong to an occurrence that has been replaced. -/
def replaceFrom (old new : List α) : ℕ → List α → List α
  | _, [] => []
  | skip + 1, _ :: cs => replaceFrom old new skip cs
  | 0, c :: cs =>
    if old.isPrefixOf (c :: cs) then new ++ replaceFrom old new (old.length - 1) cs
    else c :: replaceFrom old new 0 cs

/-- `t.replace(old, new)`, for a text that is not empty. -/
def replaceAll (old new t : List α) : List α := replaceFrom old new 0 t

theorem replaceFrom_eq (old new : List α) (skip : ℕ) (t : List α) :
    replaceFrom old new skip t = replaceAll old new (t.drop skip) := by
  induction t generalizing skip with
  | nil => cases skip <;> rfl
  | cons c cs ih =>
    cases skip with
    | zero => rfl
    | succ skip => exact ih skip

theorem replaceAll_of_starts (hold : old ≠ []) (h : old <+: t) :
    replaceAll old new t = new ++ replaceAll old new (t.drop old.length) := by
  cases t with
  | nil => exact absurd (List.prefix_nil.mp h) hold
  | cons c cs =>
    have hlength : old.length = (old.length - 1) + 1 :=
      (Nat.succ_pred_eq_of_pos (List.length_pos_of_ne_nil hold)).symm
    unfold replaceAll
    rw [replaceFrom, if_pos (List.isPrefixOf_iff_prefix.mpr h), replaceFrom_eq, hlength,
      List.drop_succ_cons]
    rfl

theorem replaceAll_cons_of_not {c : α} {cs : List α} (h : ¬ old <+: c :: cs) :
    replaceAll old new (c :: cs) = c :: replaceAll old new cs := by
  unfold replaceAll
  rw [replaceFrom, if_neg (fun hstarts => h (List.isPrefixOf_iff_prefix.mp hstarts))]

/-- The replacement goes through a text occurrence by occurrence. -/
theorem replace_induction (hold : old ≠ []) {P : List α → Prop} (nil : P [])
    (replaced : ∀ t, old <+: t → P (t.drop old.length) → P t)
    (kept : ∀ c cs, ¬ old <+: c :: cs → P cs → P (c :: cs)) (t : List α) : P t := by
  induction h : t.length using Nat.strong_induction_on generalizing t with
  | _ n ih =>
    cases t with
    | nil => exact nil
    | cons c cs =>
      by_cases hstarts : old <+: c :: cs
      · refine replaced _ hstarts (ih _ ?_ _ rfl)
        have hpos := List.length_pos_of_ne_nil hold
        rw [List.length_drop, ← h, List.length_cons]
        omega
      · refine kept c cs hstarts (ih _ ?_ _ rfl)
        rw [← h, List.length_cons]
        omega

/-! ### Barriers -/

/-- An occurrence of the text does not touch what is put between two others. -/
def Barrier (l new : List α) : Prop := ∀ a b, l <:+: a ++ new ++ b → l <:+: a ∨ l <:+: b

omit [DecidableEq α] in
/-- An element that a text does not have separates its occurrences. -/
theorem infix_append_cons {x : α} (hx : x ∉ l) {a b : List α} (h : l <:+: a ++ x :: b) :
    l <:+: a ∨ l <:+: b := by
  obtain ⟨s, u, h⟩ := h
  rcases List.append_eq_append_iff.mp h with ⟨c, ha, -⟩ | ⟨c, hsl, hc⟩
  · exact .inl ⟨s, c, ha.symm⟩
  · cases c with
    | nil => exact .inl ⟨s, [], by rw [hsl, List.append_nil, List.append_nil]⟩
    | cons y c =>
      obtain ⟨rfl, rfl⟩ := List.cons.inj hc
      rcases List.append_eq_append_iff.mp hsl with ⟨d, -, hl⟩ | ⟨d, -, hd⟩
      · exact absurd (by rw [hl]; simp) hx
      · cases d with
        | nil => exact absurd (by rw [show l = x :: c from hd.symm]; simp) hx
        | cons z d =>
          obtain ⟨rfl, rfl⟩ := List.cons.inj hd
          exact .inr ⟨d, u, rfl⟩

omit [DecidableEq α] in
/-- What stands between two elements that a text does not have, and is not part of, is a barrier. -/
theorem barrier_of_guards {x y : α} {mid : List α} (hx : x ∉ l) (hy : y ∉ l) (hmid : ¬ l <:+: mid) :
    Barrier l (x :: mid ++ [y]) := by
  intro a b h
  have hsplit : a ++ (x :: mid ++ [y]) ++ b = a ++ x :: (mid ++ y :: b) := by simp
  rw [hsplit] at h
  rcases infix_append_cons hx h with ha | h
  · exact .inl ha
  · exact .inr ((infix_append_cons hy h).resolve_left hmid)

/-- A replacement does not bring a text in. -/
theorem infix_of_replaceAll (hold : old ≠ []) (hl : Barrier l new) (h : l <:+: replaceAll old new t) :
    l <:+: t := by
  suffices hall : ∀ a, l <:+: a ++ replaceAll old new t → l <:+: a ++ t from hall [] h
  clear h
  induction t using replace_induction hold with
  | nil =>
    intro a h
    exact h
  | replaced t hstarts ih =>
    intro a h
    rw [replaceAll_of_starts hold hstarts, ← List.append_assoc] at h
    rcases hl a _ h with ha | hrest
    · exact ha.trans (List.prefix_append a t).isInfix
    · exact (ih [] hrest).trans ((List.drop_suffix _ t).isInfix.trans (List.suffix_append a t).isInfix)
  | kept c cs hstarts ih =>
    intro a h
    rw [replaceAll_cons_of_not hstarts] at h
    have hmoved := ih (a ++ [c]) (by simpa using h)
    simpa using hmoved

/-- No occurrence is left. -/
theorem not_infix_replaceAll (hold : old ≠ []) (hnew : Barrier old new) (t : List α) :
    ¬ old <:+: replaceAll old new t := by
  -- None begins in what is in front.
  suffices hall : ∀ a, (∀ b c, a = b ++ c → c ≠ [] → ¬ old <+: c ++ t) →
      ¬ old <:+: a ++ replaceAll old new t by
    refine hall [] fun b c hbc hc => absurd ?_ hc
    exact (List.append_eq_nil_iff.mp hbc.symm).2
  have hfront {a t : List α} (ha : ∀ b c, a = b ++ c → c ≠ [] → ¬ old <+: c ++ t) : ¬ old <:+: a := by
    rintro ⟨s, u, rfl⟩
    refine ha s (old ++ u) (List.append_assoc ..) (fun hnil => hold (List.append_eq_nil_iff.mp hnil).1) ?_
    rw [List.append_assoc]
    exact List.prefix_append old _
  induction t using replace_induction hold with
  | nil =>
    intro a ha h
    exact hfront ha ((List.append_nil a) ▸ h)
  | replaced t hstarts ih =>
    intro a ha h
    rw [replaceAll_of_starts hold hstarts, ← List.append_assoc] at h
    rcases hnew a _ h with hin | hrest
    · exact hfront ha hin
    · refine ih [] (fun b c hbc hc => absurd ?_ hc) hrest
      exact (List.append_eq_nil_iff.mp hbc.symm).2
  | kept c cs hstarts ih =>
    intro a ha h
    rw [replaceAll_cons_of_not hstarts] at h
    refine ih (a ++ [c]) (fun b d hbd hd => ?_) (by simpa using h)
    rcases List.eq_nil_or_concat' d with rfl | ⟨d, x, rfl⟩
    · exact absurd rfl hd
    · rw [← List.append_assoc] at hbd
      obtain ⟨hab, hx⟩ := List.append_inj' hbd rfl
      obtain rfl := List.singleton_inj.mp hx
      rw [List.append_assoc]
      by_cases hd : d = []
      · rwa [hd]
      · exact ha b d hab hd

/-- A text that does not occur is not replaced. -/
theorem replaceAll_eq_self (hold : old ≠ []) (h : ¬ old <:+: t) : replaceAll old new t = t := by
  induction t using replace_induction hold with
  | nil => rfl
  | replaced t hstarts ih => exact absurd hstarts.isInfix h
  | kept c cs hstarts ih =>
    rw [replaceAll_cons_of_not hstarts, ih fun hin => h (hin.trans (List.suffix_cons c cs).isInfix)]

/-! ### Several texts -/

/-- The texts are replaced one after the other. -/
def replaceEach (olds : List (List α)) (new t : List α) : List α :=
  olds.foldl (fun result old => replaceAll old new result) t

theorem infix_of_replaceEach {olds : List (List α)} (holds : ∀ old ∈ olds, old ≠ []) (hl : Barrier l new)
    (h : l <:+: replaceEach olds new t) : l <:+: t := by
  induction olds generalizing t with
  | nil => exact h
  | cons old olds ih =>
    obtain ⟨hold, hrest⟩ := List.forall_mem_cons.mp holds
    exact infix_of_replaceAll hold hl (ih hrest h)

/-- **Replacement.**  When no text can touch what is put in its place, none is left in the end. -/
theorem not_infix_replaceEach {olds : List (List α)}
    (holds : ∀ old ∈ olds, old ≠ [] ∧ Barrier old new) (t : List α) {old : List α} (h : old ∈ olds) :
    ¬ old <:+: replaceEach olds new t := by
  induction olds generalizing t with
  | nil => exact absurd h List.not_mem_nil
  | cons first olds ih =>
    obtain ⟨hfirst, hrest⟩ := List.forall_mem_cons.mp holds
    rcases List.mem_cons.mp h with rfl | h
    · intro hin
      exact not_infix_replaceAll hfirst.1 hfirst.2 t
        (infix_of_replaceEach (fun old hold => (hrest old hold).1) hfirst.2 hin)
    · exact ih hrest _ h

/-- Replacing once more changes nothing. -/
theorem replaceEach_eq_self {olds : List (List α)} (holds : ∀ old ∈ olds, old ≠ [])
    (h : ∀ old ∈ olds, ¬ old <:+: t) : replaceEach olds new t = t := by
  induction olds with
  | nil => rfl
  | cons old olds ih =>
    obtain ⟨hold, hrest⟩ := List.forall_mem_cons.mp holds
    obtain ⟨hnot, hothers⟩ := List.forall_mem_cons.mp h
    show replaceEach olds new (replaceAll old new t) = t
    rw [replaceAll_eq_self hold hnot, ih hrest hothers]

end Agora
