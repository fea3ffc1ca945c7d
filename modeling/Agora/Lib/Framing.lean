import Agora.Lib.Python

namespace Agora

/-!
# Frames that end in a blank line

A reader appends every chunk to its buffer and hands over what stands before each blank line, until
the buffer has none.  What it hands over does not depend on the chunks (`foldl_feed`), and a buffer
without a blank line that is completed by one is handed over whole (`drain_close`).
-/

section Framing

variable {α σ : Type*} [DecidableEq α] (nl : α)

/-- `buffer.indexOf("\n\n")`. -/
def blankAt : List α → Option ℕ
  | a :: b :: rest => if a = nl ∧ b = nl then some 0 else (blankAt (b :: rest)).map (· + 1)
  | _ => none

variable {nl}

theorem blankAt_cons_ne {a : α} (h : a ≠ nl) (buffer : List α) :
    blankAt nl (a :: buffer) = (blankAt nl buffer).map (· + 1) := by
  cases buffer with
  | nil => rfl
  | cons b rest => rw [blankAt, if_neg fun hboth => h hboth.1]

/-- The blank line is in the buffer, and the first one stays the first. -/
theorem blankAt_append {buffer : List α} {i : ℕ} (h : blankAt nl buffer = some i)
    (more : List α) : i + 2 ≤ buffer.length ∧ blankAt nl (buffer ++ more) = some i := by
  induction buffer generalizing i with
  | nil => cases h
  | cons a buffer ih =>
    cases buffer with
    | nil => cases h
    | cons b rest =>
      rw [List.cons_append, List.cons_append, blankAt]
      rw [blankAt] at h
      split_ifs at h ⊢ with hblank
      · cases h
        simp
      · obtain ⟨j, hj, rfl⟩ := Option.map_eq_some_iff.mp h
        obtain ⟨hle, happend⟩ := ih hj
        rw [List.cons_append] at happend
        rw [happend]
        constructor
        · rw [List.length_cons]
          omega
        · rfl

/-- The first blank line of a buffer without one, a text and a blank line is the last one. -/
theorem blankAt_close {r text : List α} (hr : blankAt nl r = none) (htext : nl ∉ text)
    (hne : text ≠ []) : blankAt nl (r ++ text ++ [nl, nl]) = some (r ++ text).length := by
  have hplain : ∀ text : List α, nl ∉ text →
      blankAt nl (text ++ [nl, nl]) = some text.length := by
    intro text htext
    induction text with
    | nil => simp [blankAt]
    | cons a text ih =>
      rw [List.mem_cons, not_or] at htext
      rw [List.cons_append, blankAt_cons_ne (Ne.symm htext.1), ih htext.2]
      rfl
  induction r with
  | nil => exact hplain text htext
  | cons a r ih =>
    cases r with
    | nil =>
      obtain ⟨b, text, rfl⟩ := List.exists_cons_of_ne_nil hne
      have hb : b ≠ nl := fun h => htext (h ▸ List.mem_cons_self)
      have hrest := hplain _ htext
      simp only [List.cons_append, List.nil_append] at hrest ⊢
      rw [blankAt, if_neg fun hboth => hb hboth.2, hrest]
      rfl
    | cons b r =>
      rw [blankAt] at hr
      split_ifs at hr with hblank
      have hrest := ih (Option.map_eq_none_iff.mp hr)
      simp only [List.cons_append] at hrest ⊢
      rw [blankAt, if_neg hblank, hrest]
      rfl

/-- A line and its end are no blank line. -/
theorem blankAt_line {line : List α} (h : nl ∉ line) : blankAt nl (line ++ [nl]) = none := by
  induction line with
  | nil => rfl
  | cons a line ih =>
    rw [List.mem_cons, not_or] at h
    rw [List.cons_append, blankAt_cons_ne (Ne.symm h.1), ih h.2]
    rfl

/-- A line before text that has no blank line and starts with none. -/
theorem blankAt_line_append {line rest : List α} (h : nl ∉ line) {a : α} (ha : a ≠ nl)
    (hrest : blankAt nl (a :: rest) = none) : blankAt nl (line ++ nl :: a :: rest) = none := by
  induction line with
  | nil => rw [List.nil_append, blankAt, if_neg fun hboth => ha hboth.2, hrest, Option.map_none]
  | cons b line ih =>
    rw [List.mem_cons, not_or] at h
    rw [List.cons_append, blankAt_cons_ne (Ne.symm h.1), ih h.2]
    rfl

variable (nl) (handle : σ → List α → σ)

/-- Hand over what stands before the first blank line, until there is none. -/
def drain (s : σ) (buffer : List α) : σ × List α :=
  match h : blankAt nl buffer with
  | none => (s, buffer)
  | some i => drain (handle s (buffer.take i)) (buffer.drop (i + 2))
termination_by buffer.length
decreasing_by
  have hle := (blankAt_append h []).1
  rw [List.length_drop]
  omega

/-- A chunk arrives. -/
def feed (s : σ × List α) (chunk : List α) : σ × List α := drain nl handle s.1 (s.2 ++ chunk)

variable {nl handle}

theorem drain_of_none {s : σ} {buffer : List α} (h : blankAt nl buffer = none) :
    drain nl handle s buffer = (s, buffer) := by
  rw [drain]
  split <;> simp_all

theorem drain_of_some {s : σ} {buffer : List α} {i : ℕ} (h : blankAt nl buffer = some i) :
    drain nl handle s buffer
      = drain nl handle (handle s (buffer.take i)) (buffer.drop (i + 2)) := by
  rw [drain]
  split <;> simp_all

/-- No blank line is left in the buffer. -/
theorem blankAt_drain (s : σ) (buffer : List α) :
    blankAt nl (drain nl handle s buffer).2 = none := by
  induction s, buffer using drain.induct nl handle with
  | case1 s buffer hnone => rw [drain_of_none hnone, hnone]
  | case2 s buffer i hsome ih => rw [drain_of_some hsome, ih]

theorem drain_append (s : σ) (a b : List α) :
    drain nl handle s (a ++ b)
      = drain nl handle (drain nl handle s a).1 ((drain nl handle s a).2 ++ b) := by
  induction s, a using drain.induct nl handle with
  | case1 s a hnone => rw [drain_of_none hnone]
  | case2 s a i hsome ih =>
    obtain ⟨hle, hboth⟩ := blankAt_append hsome b
    rw [drain_of_some hsome, ← ih, drain_of_some hboth,
      List.take_append_of_le_length (by omega), List.drop_append_of_le_length hle]

/-- What is handed over does not depend on how the text is divided. -/
theorem foldl_feed (chunks : List (List α)) (s : σ) :
    chunks.foldl (feed nl handle) (s, []) = drain nl handle s chunks.flatten := by
  suffices h : ∀ r : σ × List α, blankAt nl r.2 = none →
      chunks.foldl (feed nl handle) r = drain nl handle r.1 (r.2 ++ chunks.flatten) from
    h (s, []) rfl
  induction chunks with
  | nil =>
    intro r hr
    rw [List.foldl_nil, List.flatten_nil, List.append_nil, drain_of_none hr]
  | cons chunk chunks ih =>
    intro r hr
    have hfeed : blankAt nl (feed nl handle r chunk).2 = none := blankAt_drain _ _
    rw [List.foldl_cons, ih _ hfeed, List.flatten_cons, ← List.append_assoc,
      drain_append _ (r.2 ++ chunk), feed]

/-- A buffer without a blank line, completed by a text and a blank line, is one frame. -/
theorem drain_close {r text : List α} (hr : blankAt nl r = none) (htext : nl ∉ text)
    (hne : text ≠ []) (s : σ) :
    drain nl handle s (r ++ text ++ [nl, nl]) = (handle s (r ++ text), []) := by
  have hdrop : (r ++ text ++ [nl, nl]).drop ((r ++ text).length + 2) = [] :=
    List.drop_eq_nil_of_le (by simp [Nat.add_assoc])
  rw [drain_of_some (blankAt_close hr htext hne), List.take_left, hdrop, drain_of_none rfl]

/-! ### The frames themselves -/

variable (nl)

/-- The frames of a text, and what is left. -/
def frames (text : List α) : List (List α) × List α := drain nl (fun fs f => fs ++ [f]) [] text

variable {nl}

/-- Handing over is going through the frames. -/
theorem drain_eq_foldl (s : σ) (text : List α) :
    drain nl handle s text = ((frames nl text).1.foldl handle s, (frames nl text).2) := by
  suffices h : ∀ fs : List (List α), ∀ s₀ : σ, fs.foldl handle s₀ = s →
      drain nl handle s text = ((drain nl (fun fs f => fs ++ [f]) fs text).1.foldl handle s₀,
        (drain nl (fun fs f => fs ++ [f]) fs text).2) from h [] s rfl
  induction s, text using drain.induct nl handle with
  | case1 s text hnone =>
    intro fs s₀ hs
    rw [drain_of_none hnone, drain_of_none hnone, hs]
  | case2 s text i hsome ih =>
    intro fs s₀ hs
    rw [drain_of_some hsome, drain_of_some hsome]
    apply ih
    rw [List.foldl_append, hs]
    rfl

theorem frames_of_none {text : List α} (h : blankAt nl text = none) : frames nl text = ([], text) :=
  drain_of_none h

theorem blankAt_frames (text : List α) : blankAt nl (frames nl text).2 = none :=
  blankAt_drain _ _

/-- What is left is an end of the text. -/
theorem frames_suffix (text : List α) : (frames nl text).2 <:+ text := by
  suffices h : ∀ fs : List (List α), (drain nl (fun fs f => fs ++ [f]) fs text).2 <:+ text from h []
  intro fs
  induction fs, text using drain.induct nl fun fs f => fs ++ [f] with
  | case1 fs text hnone =>
    simp only [drain_of_none hnone, List.suffix_rfl]
  | case2 fs text i hsome ih =>
    rw [drain_of_some hsome]
    exact ih.trans (List.drop_suffix _ _)

end Framing

end Agora
