import Agora.Lib.Python
import Mathlib.Data.List.DropRight
import Mathlib.Data.List.GetD

namespace Agora

/-!
# Texts

A text is the list of its characters.  Slices, `strip`, `split("\n\n")`, `finditer(r"\S+")` and the line
breaks, each with the places in the text that its parts come from.  The words of a text cover all of it but
the whitespace (`covered_finditer`).
-/

variable {α : Type}

/-! ### Slices -/

/-- `cs[start:stop]`. -/
def slice (cs : List α) (start stop : ℕ) : List α := (cs.take stop).drop start

theorem slice_append_left (before cs : List α) (i j : ℕ) :
    slice (before ++ cs) (before.length + i) (before.length + j) = slice cs i j := by
  rw [slice, List.take_length_add_append, List.drop_length_add_append]
  rfl

theorem slice_append_right {cs : List α} {j : ℕ} (hj : j ≤ cs.length) (behind : List α) (i : ℕ) :
    slice (cs ++ behind) i j = slice cs i j := by
  rw [slice, List.take_append_of_le_length hj]
  rfl

theorem slice_all (cs : List α) : slice cs 0 cs.length = cs := by
  rw [slice, List.take_length]
  rfl

/-- The part between two others. -/
theorem slice_middle (before cs behind : List α) :
    slice (before ++ cs ++ behind) before.length (before.length + cs.length) = cs := by
  have h := slice_append_left before (cs ++ behind) 0 cs.length
  rw [Nat.add_zero, slice_append_right (Nat.le_refl _), slice_all] at h
  rw [List.append_assoc]
  exact h

theorem slice_slice {cs : List α} {i j k l : ℕ} (h : i + l ≤ j) :
    slice (slice cs i j) k l = slice cs (i + k) (i + l) := by
  unfold slice
  rw [List.take_drop, List.take_take, List.drop_drop, Nat.min_eq_left h]

theorem length_slice {cs : List α} {i j : ℕ} (h : j ≤ cs.length) : (slice cs i j).length = j - i := by
  rw [slice, List.length_drop, List.length_take, Nat.min_eq_left h]

theorem mem_slice {cs : List α} {i j k : ℕ} {c : α} (h : cs[k]? = some c) (hi : i ≤ k) (hj : k < j) :
    c ∈ slice cs i j := by
  refine List.mem_of_getElem? (i := k - i) ?_
  rw [slice, List.getElem?_drop, Nat.add_sub_cancel' hi, List.getElem?_take_of_lt hj]
  exact h

/-! ### Spans -/

/-- Spans one after another, none of them empty. -/
def Within (lo hi : ℕ) : List (ℕ × ℕ) → Prop
  | [] => lo ≤ hi
  | (b, e) :: spans => lo ≤ b ∧ b < e ∧ Within e hi spans

/-- Spans that end before others start. -/
theorem Within.append {lo mid mid' hi : ℕ} {spans spans' : List (ℕ × ℕ)} (h : Within lo mid spans)
    (hle : mid ≤ mid') (h' : Within mid' hi spans') : Within lo hi (spans ++ spans') := by
  induction spans generalizing lo with
  | nil =>
    cases spans' with
    | nil => exact (Nat.le_trans h hle).trans h'
    | cons s spans' => exact ⟨(Nat.le_trans h hle).trans h'.1, h'.2⟩
  | cons s spans ih => exact ⟨h.1, h.2.1, ih h.2.2⟩

/-- All but the whitespace is in one of the spans. -/
def Covered (space : α → Bool) (spans : List (ℕ × ℕ)) (cs : List α) : Prop :=
  ∀ i c, cs[i]? = some c → space c = false → ∃ s ∈ spans, s.1 ≤ i ∧ i < s.2

namespace Within

variable {lo lo' hi : ℕ} {spans : List (ℕ × ℕ)}

theorem le (h : Within lo hi spans) : lo ≤ hi := by
  induction spans generalizing lo with
  | nil => exact h
  | cons s spans ih =>
    obtain ⟨hlo, hs, hrest⟩ := h
    exact (hlo.trans hs.le).trans (ih hrest)

theorem mono (h : Within lo hi spans) (hle : lo' ≤ lo) : Within lo' hi spans := by
  cases spans with
  | nil => exact hle.trans h
  | cons s spans => exact ⟨hle.trans h.1, h.2⟩

theorem mem (h : Within lo hi spans) {s : ℕ × ℕ} (hs : s ∈ spans) : lo ≤ s.1 ∧ s.1 < s.2 ∧ s.2 ≤ hi := by
  induction spans generalizing lo with
  | nil => exact absurd hs List.not_mem_nil
  | cons t spans ih =>
    obtain ⟨hlo, ht, hrest⟩ := h
    rcases List.mem_cons.mp hs with rfl | hs
    · exact ⟨hlo, ht, hrest.le⟩
    · obtain ⟨hfirst, hs⟩ := ih hrest hs
      exact ⟨(hlo.trans ht.le).trans hfirst, hs⟩

/-- Each span ends before the next one starts. -/
theorem pairwise (h : Within lo hi spans) : spans.Pairwise fun s t => s.2 ≤ t.1 := by
  induction spans generalizing lo with
  | nil => exact List.Pairwise.nil
  | cons s spans ih =>
    obtain ⟨-, -, hrest⟩ := h
    exact List.Pairwise.cons (fun t ht => (hrest.mem ht).1) (ih hrest)

/-- Spans with greater numbers start and end later. -/
theorem getD_mono (h : Within lo hi spans) {i j : ℕ} (hij : i ≤ j) (hj : j < spans.length) :
    (spans.getD i (0, 0)).1 ≤ (spans.getD j (0, 0)).1
      ∧ (spans.getD i (0, 0)).2 ≤ (spans.getD j (0, 0)).2 := by
  have hi := lt_of_le_of_lt hij hj
  rw [List.getD_eq_getElem _ _ hi, List.getD_eq_getElem _ _ hj]
  rcases Nat.lt_or_eq_of_le hij with hlt | rfl
  · have hbefore := List.pairwise_iff_getElem.mp h.pairwise i j hi hj hlt
    have hfirst := h.mem (List.getElem_mem hi)
    have hlast := h.mem (List.getElem_mem hj)
    omega
  · exact ⟨le_rfl, le_rfl⟩

end Within

/-! ### Whitespace -/

/-- `text.lstrip()`. -/
def lstrip (cs : List Char) : List Char := cs.dropWhile isSpace

/-- `text.rstrip()`. -/
def rstrip (cs : List Char) : List Char := cs.rdropWhile isSpace

/-- `text.strip()`. -/
def strip (cs : List Char) : List Char := rstrip (lstrip cs)

/-- What is stripped. -/
theorem exists_eq_append_strip (cs : List Char) : ∃ behind,
    cs = cs.takeWhile isSpace ++ strip cs ++ behind ∧ (∀ c ∈ behind, isSpace c = true)
      ∧ (cs.takeWhile isSpace).length = cs.length - (lstrip cs).length := by
  have hleft : cs = cs.takeWhile isSpace ++ lstrip cs := List.takeWhile_append_dropWhile.symm
  refine ⟨(lstrip cs).rtakeWhile isSpace, ?_, fun c hc => List.mem_rtakeWhile_imp hc, ?_⟩
  · rw [List.append_assoc, strip, rstrip, List.rdropWhile_append_rtakeWhile]
    exact hleft
  · have hlength := congrArg List.length hleft
    rw [List.length_append] at hlength
    omega

theorem strip_eq_nil {cs : List Char} : strip cs = [] ↔ ∀ c ∈ cs, isSpace c = true := by
  unfold strip rstrip lstrip
  rw [List.rdropWhile_eq_nil_iff]
  constructor
  · intro h c hc
    rw [← List.takeWhile_append_dropWhile (p := isSpace) (l := cs)] at hc
    rcases List.mem_append.mp hc with hc | hc
    · exact List.mem_takeWhile_imp hc
    · exact h c hc
  · intro h c hc
    exact h c ((List.dropWhile_suffix isSpace).subset hc)

theorem exists_of_strip_ne_nil {cs : List Char} (h : strip cs ≠ []) : ∃ c ∈ cs, isSpace c = false := by
  by_contra hnone
  refine h (strip_eq_nil.mpr fun c hc => ?_)
  by_contra hspace
  exact hnone ⟨c, hc, Bool.eq_false_iff.mpr hspace⟩

theorem strip_ne_nil {cs : List Char} {c : Char} (hc : c ∈ cs) (hspace : isSpace c = false) :
    strip cs ≠ [] := by
  intro hnil
  rw [strip_eq_nil.mp hnil c hc] at hspace
  cases hspace

/-- A stripped text does not end in whitespace. -/
theorem isSpace_getLast_strip {cs : List Char} (h : strip cs ≠ []) :
    isSpace ((strip cs).getLast h) = false := by
  have hlast := List.rdropWhile_last_not isSpace (lstrip cs) h
  exact Bool.not_eq_true _ ▸ hlast

theorem strip_strip_ne_nil {cs : List Char} (h : strip cs ≠ []) : strip (strip cs) ≠ [] :=
  strip_ne_nil (List.getLast_mem h) (isSpace_getLast_strip h)

/-- Leading and trailing whitespace does not have to be covered. -/
theorem Covered.of_strip {cs : List Char} {spans : List (ℕ × ℕ)} (h : Covered isSpace spans (strip cs)) :
    ∀ i c, cs[i]? = some c → isSpace c = false →
      ∃ s ∈ spans, (cs.takeWhile isSpace).length + s.1 ≤ i ∧ i < (cs.takeWhile isSpace).length + s.2 := by
  intro i c hc hspace
  obtain ⟨behind, heq, hbehind, -⟩ := exists_eq_append_strip cs
  rw [heq, List.append_assoc] at hc
  have hleft : (cs.takeWhile isSpace).length ≤ i := by
    by_contra hlt
    rw [List.getElem?_append_left (Nat.lt_of_not_le hlt)] at hc
    rw [List.mem_takeWhile_imp (List.mem_of_getElem? hc)] at hspace
    cases hspace
  rw [List.getElem?_append_right hleft] at hc
  have hright : i - (cs.takeWhile isSpace).length < (strip cs).length := by
    by_contra hle
    rw [List.getElem?_append_right (Nat.le_of_not_lt hle)] at hc
    rw [hbehind c (List.mem_of_getElem? hc)] at hspace
    cases hspace
  rw [List.getElem?_append_left hright] at hc
  obtain ⟨s, hs, hstart, hstop⟩ := h _ c hc hspace
  exact ⟨s, hs, by omega, by omega⟩

/-! ### Paragraphs -/

/-- `text.split("\n\n")`. -/
def splitParagraphs : List Char → List (List Char)
  | [] => [[]]
  | '\n' :: '\n' :: cs => [] :: splitParagraphs cs
  | c :: cs =>
    match splitParagraphs cs with
    | [] => [[c]]
    | p :: ps => (c :: p) :: ps

/-- `"\n\n".join(paragraphs)`. -/
def joinParagraphs : List (List Char) → List Char
  | [] => []
  | [p] => p
  | p :: ps => p ++ '\n' :: '\n' :: joinParagraphs ps

theorem splitParagraphs_ne_nil (cs : List Char) : splitParagraphs cs ≠ [] := by
  fun_cases splitParagraphs cs <;> simp

theorem joinParagraphs_cons_cons (c : Char) (p : List Char) (ps : List (List Char)) :
    joinParagraphs ((c :: p) :: ps) = c :: joinParagraphs (p :: ps) := by
  cases ps with
  | nil => rfl
  | cons q ps => rfl

theorem joinParagraphs_splitParagraphs (cs : List Char) : joinParagraphs (splitParagraphs cs) = cs := by
  fun_induction splitParagraphs cs with
  | case1 => rfl
  | case2 cs ih =>
    cases h : splitParagraphs cs with
    | nil => exact absurd h (splitParagraphs_ne_nil cs)
    | cons p ps =>
      rw [h] at ih
      show '\n' :: '\n' :: joinParagraphs (p :: ps) = _
      rw [ih]
  | case3 c cs _ h ih => exact absurd h (splitParagraphs_ne_nil cs)
  | case4 c cs _ p ps h ih =>
    rw [h] at ih
    rw [joinParagraphs_cons_cons, ih]

/-! ### Line breaks -/

/-- `text.replace("\r\n", "\n")`. -/
def replaceCrLf : List Char → List Char
  | [] => []
  | '\r' :: '\n' :: cs => '\n' :: replaceCrLf cs
  | c :: cs => c :: replaceCrLf cs

/-- `text.replace("\r\n", "\n").replace("\r", "\n")`. -/
def normalizeNewlines (cs : List Char) : List Char :=
  (replaceCrLf cs).map fun c => if c = '\r' then '\n' else c

theorem not_mem_normalizeNewlines (cs : List Char) : '\r' ∉ normalizeNewlines cs := by
  intro h
  obtain ⟨c, -, hc⟩ := List.mem_map.mp h
  split_ifs at hc with hr
  · cases hc
  · exact hr hc

theorem mem_replaceCrLf {cs : List Char} {c : Char} (hc : c ≠ '\r') : c ∈ replaceCrLf cs ↔ c ∈ cs := by
  fun_induction replaceCrLf cs with
  | case1 => rfl
  | case2 cs ih => rw [List.mem_cons, List.mem_cons, List.mem_cons, ih, or_iff_right hc]
  | case3 d cs _ ih => rw [List.mem_cons, List.mem_cons, ih]

/-- Normalized line breaks are whitespace as before. -/
theorem strip_normalizeNewlines_eq_nil {cs : List Char} : strip (normalizeNewlines cs) = [] ↔ strip cs = [] := by
  rw [strip_eq_nil, strip_eq_nil]
  constructor
  · intro h c hc
    by_cases hr : c = '\r'
    · rw [hr]
      decide
    · apply h
      refine List.mem_map.mpr ⟨c, (mem_replaceCrLf hr).mpr hc, if_neg hr⟩
  · intro h c hc
    obtain ⟨d, hd, rfl⟩ := List.mem_map.mp hc
    by_cases hr : d = '\r'
    · rw [if_pos hr]
      decide
    · rw [if_neg hr]
      exact h d ((mem_replaceCrLf hr).mp hd)

theorem replaceCrLf_of_not_mem {cs : List Char} (h : '\r' ∉ cs) : replaceCrLf cs = cs := by
  fun_induction replaceCrLf cs with
  | case1 => rfl
  | case2 cs ih => exact absurd List.mem_cons_self h
  | case3 c cs _ ih => rw [ih fun hmem => h (List.mem_cons_of_mem c hmem)]

theorem normalizeNewlines_of_not_mem {cs : List Char} (h : '\r' ∉ cs) : normalizeNewlines cs = cs := by
  rw [normalizeNewlines, replaceCrLf_of_not_mem h]
  have hsame : ∀ c ∈ cs, (if c = '\r' then '\n' else c) = id c := by
    intro c hc
    rw [if_neg]
    · rfl
    · rintro rfl
      exact h hc
  rw [List.map_congr_left hsame]
  exact List.map_id cs

theorem mem_joinParagraphs {ps : List (List Char)} {p : List Char} (hp : p ∈ ps) {c : Char} (hc : c ∈ p) :
    c ∈ joinParagraphs ps := by
  induction ps with
  | nil => exact absurd hp List.not_mem_nil
  | cons q ps ih =>
    cases ps with
    | nil =>
      obtain rfl := List.mem_singleton.mp hp
      exact hc
    | cons q' ps =>
      rcases List.mem_cons.mp hp with rfl | hp
      · exact List.mem_append_left _ hc
      · exact List.mem_append_right _ (List.mem_cons_of_mem _ (List.mem_cons_of_mem _ (ih hp)))

/-! ### Words -/

/-- The words from here on, `start` being where the current word has started. -/
def finditerFrom (start : Option ℕ) (i : ℕ) : List Char → List (ℕ × ℕ)
  | [] => start.toList.map fun b => (b, i)
  | c :: cs =>
    if isSpace c then (start.toList.map fun b => (b, i)) ++ finditerFrom none (i + 1) cs
    else finditerFrom (some (start.getD i)) (i + 1) cs

/-- The spans of `re.finditer(r"\S+", text)`. -/
def finditer (cs : List Char) : List (ℕ × ℕ) := finditerFrom none 0 cs

theorem within_finditerFrom (cs : List Char) {start : Option ℕ} {i : ℕ} (h : ∀ b ∈ start, b < i) :
    Within (start.getD i) (i + cs.length) (finditerFrom start i cs) := by
  induction cs generalizing start i with
  | nil =>
    cases start with
    | none => exact Nat.le_refl i
    | some b => exact ⟨Nat.le_refl b, h b rfl, Nat.le_refl i⟩
  | cons c cs ih =>
    have hlength : i + (c :: cs).length = i + 1 + cs.length := by
      rw [List.length_cons]
      omega
    rw [hlength, finditerFrom]
    split_ifs with hspace
    · have hrest : Within (i + 1) (i + 1 + cs.length) (finditerFrom none (i + 1) cs) :=
        ih fun b hb => absurd hb (Option.not_mem_none b)
      cases start with
      | none => exact hrest.mono (Nat.le_succ i)
      | some b => exact ⟨Nat.le_refl b, h b rfl, hrest.mono (Nat.le_succ i)⟩
    · refine @ih (some (start.getD i)) _ fun b hb => ?_
      obtain rfl := Option.mem_some_iff.mp hb
      cases start with
      | none => exact Nat.lt_succ_self i
      | some b => exact Nat.lt_succ_of_lt (h b rfl)

theorem within_finditer (cs : List Char) : Within 0 cs.length (finditer cs) := by
  have h := @within_finditerFrom cs none 0 fun b hb => absurd hb (Option.not_mem_none b)
  rwa [Nat.zero_add] at h

/-- A word starts with a character that is not whitespace. -/
theorem exists_first_of_mem_finditerFrom (cs : List Char) {start : Option ℕ} {i : ℕ} {s : ℕ × ℕ}
    (h : s ∈ finditerFrom start i cs) :
    start = some s.1 ∨ i ≤ s.1 ∧ ∃ c, cs[s.1 - i]? = some c ∧ isSpace c = false := by
  induction cs generalizing start i with
  | nil =>
    obtain ⟨b, hb, rfl⟩ := List.mem_map.mp h
    exact .inl (Option.mem_toList.mp hb)
  | cons c cs ih =>
    have hnext {b : ℕ} (hle : i + 1 ≤ b) : (c :: cs)[b - i]? = cs[b - (i + 1)]? := by
      have hindex : b - i = b - (i + 1) + 1 := by omega
      rw [hindex, List.getElem?_cons_succ]
    rw [finditerFrom] at h
    split_ifs at h with hspace
    · rcases List.mem_append.mp h with h | h
      · obtain ⟨b, hb, rfl⟩ := List.mem_map.mp h
        exact .inl (Option.mem_toList.mp hb)
      · rcases ih h with hnone | ⟨hle, d, hd, hfirst⟩
        · cases hnone
        · exact .inr ⟨by omega, d, (hnext hle).trans hd, hfirst⟩
    · rcases ih h with hsome | ⟨hle, d, hd, hfirst⟩
      · cases start with
        | none =>
          obtain rfl := Option.some.inj hsome
          refine .inr ⟨Nat.le_refl _, c, ?_, Bool.eq_false_iff.mpr hspace⟩
          show (c :: cs)[s.1 - s.1]? = some c
          rw [Nat.sub_self]
          rfl
        | some b => exact .inl hsome
      · exact .inr ⟨by omega, d, (hnext hle).trans hd, hfirst⟩

theorem exists_first_of_mem_finditer {cs : List Char} {s : ℕ × ℕ} (h : s ∈ finditer cs) :
    ∃ c, cs[s.1]? = some c ∧ isSpace c = false := by
  rcases exists_first_of_mem_finditerFrom cs h with hnone | ⟨-, hfirst⟩
  · cases hnone
  · exact hfirst

/-- A word that has started is in the result. -/
theorem exists_mem_finditerFrom (cs : List Char) (b i : ℕ) :
    ∃ e, (b, e) ∈ finditerFrom (some b) i cs ∧ i ≤ e := by
  induction cs generalizing i with
  | nil => exact ⟨i, List.mem_singleton_self _, Nat.le_refl i⟩
  | cons c cs ih =>
    rw [finditerFrom]
    split_ifs
    · exact ⟨i, List.mem_cons_self, Nat.le_refl i⟩
    · obtain ⟨e, he, hle⟩ := ih (i + 1)
      exact ⟨e, he, Nat.le_of_succ_le hle⟩

theorem covered_finditerFrom (cs : List Char) (start : Option ℕ) {i : ℕ} (h : ∀ b ∈ start, b < i) :
    ∀ j c, cs[j]? = some c → isSpace c = false →
      ∃ s ∈ finditerFrom start i cs, s.1 ≤ i + j ∧ i + j < s.2 := by
  induction cs generalizing start i with
  | nil =>
    intro j c hc
    rw [List.getElem?_nil] at hc
    cases hc
  | cons d cs ih =>
    intro j c hc hspace
    rw [finditerFrom]
    cases j with
    | zero =>
      obtain rfl := Option.some.inj hc
      rw [if_neg (Bool.eq_false_iff.mp hspace)]
      obtain ⟨e, he, hle⟩ := exists_mem_finditerFrom cs (start.getD i) (i + 1)
      refine ⟨_, he, ?_, hle⟩
      cases start with
      | none => exact Nat.le_refl i
      | some b => exact (h b rfl).le
    | succ j =>
      have hindex : i + (j + 1) = i + 1 + j := by omega
      rw [List.getElem?_cons_succ] at hc
      rw [hindex]
      split_ifs
      · obtain ⟨s, hs, hin⟩ := ih none (fun b hb => absurd hb (Option.not_mem_none b)) j c hc hspace
        exact ⟨s, List.mem_append_right _ hs, hin⟩
      · refine ih (some (start.getD i)) (fun b hb => ?_) j c hc hspace
        obtain rfl := Option.mem_some_iff.mp hb
        cases start with
        | none => exact Nat.lt_succ_self i
        | some b => exact Nat.lt_succ_of_lt (h b rfl)

/-- **Words.**  They cover the text. -/
theorem covered_finditer (cs : List Char) : Covered isSpace (finditer cs) cs := by
  intro j c hc hspace
  have h := covered_finditerFrom cs none (i := 0) (fun b hb => absurd hb (Option.not_mem_none b)) j c hc hspace
  rwa [Nat.zero_add] at h

end Agora
