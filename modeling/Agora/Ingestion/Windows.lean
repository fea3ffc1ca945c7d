import Agora.Ingestion.Locators
import Agora.Lib.Maxima
import Agora.Lib.Words

namespace Agora.Ingestion.Chunking

/-!
# Windows

The chunks of a block are windows of its words.  The windows of a heading or a table row are the one window
of all words; those of any other block have the same size, the last one apart, and each takes up the same
number of words of the one before (`chunkDocument_windows`).
-/

/-! ### Windows of words -/

/-- The windows start at the word `start` and end at the last of `n` words. -/
structure WindowsFrom (start n capacity retained : ℕ) (ws : List (ℕ × ℕ)) : Prop where
  first : ∃ w, ws.head? = some w ∧ w.1 = start
  last : ∃ w, ws.getLast? = some w ∧ w.2 = n
  full : ∀ w ∈ ws.dropLast, w.2 = w.1 + capacity
  size : ∀ w ∈ ws, w.1 < w.2 ∧ w.2 ≤ w.1 + capacity
  overlap : ws.IsChain fun v w => w.1 + retained = v.2

theorem WindowsFrom.singleton {start n capacity retained : ℕ} (hlt : start < n)
    (hle : n ≤ start + capacity) : WindowsFrom start n capacity retained [(start, n)] where
  first := ⟨(start, n), rfl, rfl⟩
  last := ⟨(start, n), rfl, rfl⟩
  full := nofun
  size w hw := by
    obtain rfl := List.mem_singleton.mp hw
    exact ⟨hlt, hle⟩
  overlap := List.IsChain.singleton _

/-- A full window and the windows behind it. -/
theorem WindowsFrom.cons {start n capacity retained : ℕ} {ws : List (ℕ × ℕ)} (hcapacity : 0 < capacity)
    (hretained : retained ≤ capacity)
    (h : WindowsFrom (start + capacity - retained) n capacity retained ws) :
    WindowsFrom start n capacity retained ((start, start + capacity) :: ws) := by
  obtain ⟨w, hw, hfirst⟩ := h.first
  obtain ⟨ws, rfl⟩ := List.head?_eq_some_iff.mp hw
  have hne : w :: ws ≠ [] := List.cons_ne_nil w ws
  refine ⟨⟨_, rfl, rfl⟩, ?_, ?_, ?_, ?_⟩
  · rw [List.getLast?_cons_of_ne_nil hne]
    exact h.last
  · rw [List.dropLast_cons_of_ne_nil hne]
    exact List.forall_mem_cons.mpr ⟨rfl, h.full⟩
  · exact List.forall_mem_cons.mpr ⟨⟨Nat.lt_add_of_pos_right hcapacity, Nat.le_refl _⟩, h.size⟩
  · apply List.IsChain.cons_cons _ h.overlap
    show w.1 + retained = start + capacity
    omega

theorem windows_windowsFrom {capacity overlap n start : ℕ} (hcapacity : 0 < capacity) (hstart : start < n) :
    WindowsFrom start n capacity (min overlap (capacity - 1))
      (windows false capacity overlap n hcapacity start) := by
  fun_induction windows false capacity overlap n hcapacity start with
  | case1 start h ih =>
    have hend : windowEnd false capacity n start = min (start + capacity) n := rfl
    by_cases hlast : windowEnd false capacity n start = n
    · rw [if_pos hlast, hlast]
      exact WindowsFrom.singleton h (by omega)
    · have hfull : windowEnd false capacity n start = start + capacity := by omega
      have hrest := ih hlast (by omega)
      rw [if_neg hlast]
      rw [hfull] at hrest ⊢
      exact hrest.cons hcapacity (by omega)
  | case2 start h => exact absurd hstart h

theorem windows_whole {capacity overlap n : ℕ} (hcapacity : 0 < capacity) (h : 0 < n) :
    windows true capacity overlap n hcapacity 0 = [(0, n)] := by
  rw [windows, if_pos h]
  show (0, n) :: (if n = n then [] else _) = _
  rw [if_pos rfl]

/-! ### Chunks of a block -/

/-- The words that are repeated in front of each chunk. -/
def DocumentBlock.prefixCount (b : DocumentBlock) : ℕ := (finditer (b.repeatPrefix.getD [])).length

/-- The words that there is room for in a chunk. -/
def DocumentBlock.capacity (b : DocumentBlock) (targetTokens : ℕ) : ℕ :=
  max 1 (targetTokens - b.prefixCount)

/-- What is written in front of each chunk. -/
def DocumentBlock.header (b : DocumentBlock) : List Char := b.repeatPrefix.elim [] (· ++ ['\n'])

/-- The chunk has the words of the window: it starts where the first one does and ends where the last one
    does, and what it says is the part of the block that its locator names. -/
structure CutFrom (source : DocumentBlock) (w : ℕ × ℕ) (chunk : DocumentChunk) : Prop where
  charStart : chunk.locator.charStart
    = source.locator.charStart + ((finditer source.text).getD w.1 (0, 0)).1
  charEnd : chunk.locator.charEnd
    = source.locator.charStart + ((finditer source.text).getD (w.2 - 1) (0, 0)).2
  place : { chunk.locator with
    charStart := source.locator.charStart, charEnd := source.locator.charEnd } = source.locator
  text : chunk.text = source.header ++ slice source.text
    (chunk.locator.charStart - source.locator.charStart) (chunk.locator.charEnd - source.locator.charStart)
  tokenCount : chunk.tokenCount = source.prefixCount + (w.2 - w.1)

/-- The chunks of a block. -/
def BlockChunks (targetTokens overlapTokens : ℕ) (source : DocumentBlock) (chunks : List DocumentChunk) :
    Prop :=
  ∃ ws, List.Forall₂ (CutFrom source) ws chunks
    ∧ if source.kind = .heading ∨ source.kind = .tableRow then ws = [(0, (finditer source.text).length)]
      else WindowsFrom 0 (finditer source.text).length (source.capacity targetTokens)
          (min overlapTokens (source.capacity targetTokens - 1)) ws
        ∧ (source.prefixCount < targetTokens → ∀ chunk ∈ chunks, chunk.tokenCount ≤ targetTokens)

section Blocks

variable {source : DocumentBlock}

/-- A block has words. -/
theorem length_finditer_pos (h : source.Valid) : 0 < (finditer source.text).length := by
  obtain ⟨c, hc, hspace⟩ := exists_of_strip_ne_nil h.2.1
  obtain ⟨i, hi⟩ := List.mem_iff_getElem?.mp hc
  obtain ⟨s, hs, -⟩ := covered_finditer source.text i c hi hspace
  exact List.length_pos_of_mem hs

/-- What a chunk says. -/
theorem text_chunkOf (h : source.Valid) (ordinal : ℕ) (w : ℕ × ℕ) :
    (chunkOf source (finditer source.text) ordinal w).text
      = source.header ++ slice source.text ((finditer source.text).getD w.1 (0, 0)).1
          ((finditer source.text).getD (w.2 - 1) (0, 0)).2 := by
  unfold chunkOf DocumentBlock.header
  cases hrepeat : source.repeatPrefix with
  | none => rfl
  | some before =>
    cases before with
    | nil => exact absurd rfl (h.2.2 [] hrepeat)
    | cons c before =>
      show (c :: before) ++ '\n' :: _ = ((c :: before) ++ ['\n']) ++ _
      rw [List.append_assoc]
      rfl

theorem length_finditer_header (cs : List Char) :
    (finditer (source.header ++ cs)).length = source.prefixCount + (finditer cs).length := by
  unfold DocumentBlock.header DocumentBlock.prefixCount
  cases source.repeatPrefix with
  | none => exact (Nat.zero_add _).symm
  | some before =>
    show (finditer ((before ++ ['\n']) ++ cs)).length = _
    rw [List.append_assoc]
    exact finditer_append_newline before cs

theorem cutFrom_chunkOf (h : source.Valid) (ordinal : ℕ) {w : ℕ × ℕ} (hw : w.1 < w.2)
    (hn : w.2 ≤ (finditer source.text).length) :
    CutFrom source w (chunkOf source (finditer source.text) ordinal w) where
  charStart := rfl
  charEnd := rfl
  place := rfl
  text := by
    rw [text_chunkOf h]
    show _ = source.header ++ slice source.text (source.locator.charStart + _ - source.locator.charStart)
      (source.locator.charStart + _ - source.locator.charStart)
    rw [Nat.add_sub_cancel_left, Nat.add_sub_cancel_left]
  tokenCount := by
    show (finditer (chunkOf source (finditer source.text) ordinal w).text).length = _
    rw [text_chunkOf h, length_finditer_header, length_finditer_slice source.text hw hn]

/-- A chunk passes its validators. -/
theorem CutFrom.valid {w : ℕ × ℕ} {chunk : DocumentChunk} (h : CutFrom source w chunk) (hw : w.1 < w.2)
    (hcount : chunk.tokenCount = (finditer chunk.text).length) : chunk.Valid := by
  have hpositive : 0 < chunk.tokenCount := by
    rw [h.tokenCount]
    omega
  refine ⟨?_, hpositive⟩
  intro hnil
  rw [hcount, hnil] at hpositive
  exact absurd hpositive (Nat.lt_irrefl 0)

end Blocks

/-! ### Loops -/

/-- A loop that only appends, and numbers what it appends. -/
theorem exists_foldlM_numbered {α β : Type} {f : List β → α → Py (List β)} {P : α → List β → Prop}
    (number : β → ℕ) {l : List α}
    (h : ∀ acc, ∀ a ∈ l, ∃ new, f acc a = .ok (acc ++ new) ∧ P a new
      ∧ new.map number = List.range' acc.length new.length) (acc : List β) :
    ∃ parts, l.foldlM f acc = .ok (acc ++ parts.flatten) ∧ List.Forall₂ P l parts
      ∧ parts.flatten.map number = List.range' acc.length parts.flatten.length := by
  induction l generalizing acc with
  | nil => exact ⟨[], by rw [List.flatten_nil, List.append_nil]; rfl, List.Forall₂.nil, rfl⟩
  | cons a l ih =>
    obtain ⟨new, hnew, hP, hnumber⟩ := h acc a List.mem_cons_self
    obtain ⟨parts, hparts, hall, hnumbers⟩ :=
      ih (fun acc a ha => h acc a (List.mem_cons_of_mem _ ha)) (acc ++ new)
    refine ⟨new :: parts, ?_, List.Forall₂.cons hP hall, ?_⟩
    · rw [List.foldlM_cons, hnew, List.flatten_cons, ← List.append_assoc]
      exact hparts
    · rw [List.flatten_cons, List.map_append, hnumber, hnumbers, List.length_append, List.length_append]
      exact List.range'_append_1

theorem forall₂_flatten_singletons {α β : Type} {P : α → β → Prop} {l : List α} {parts : List (List β)}
    (h : List.Forall₂ (fun a new => ∃ b, new = [b] ∧ P a b) l parts) :
    List.Forall₂ P l parts.flatten := by
  induction h with
  | nil => exact List.Forall₂.nil
  | cons hab _ ih =>
    obtain ⟨b, rfl, hb⟩ := hab
    exact List.Forall₂.cons hb ih

/-! ### Documents -/

/-- The chunks of one more block, numbered from those that are there. -/
theorem exists_chunkBlock_windows {source : DocumentBlock} (h : source.Valid) {targetTokens : ℕ}
    (overlapTokens : ℕ) (chunks : List DocumentChunk) :
    ∃ new, chunkBlock targetTokens overlapTokens chunks source = .ok (chunks ++ new)
      ∧ BlockChunks targetTokens overlapTokens source new
      ∧ new.map (·.ordinal) = List.range' chunks.length new.length := by
  have hpositive := length_finditer_pos h
  have hbounds : ∀ w ∈ windowsOf targetTokens overlapTokens source,
      w.1 < w.2 ∧ w.2 ≤ (finditer source.text).length := fun w hw => bounds_of_mem_windows hw
  obtain ⟨parts, hparts, hall, hnumbers⟩ := exists_foldlM_numbered
    (P := fun w new => ∃ chunk, new = [chunk] ∧ CutFrom source w chunk) (·.ordinal)
    (f := fun chunks window => do
      let chunk := chunkOf source (finditer source.text) chunks.length window
      let chunk ← validated chunk.Valid chunk
      pure (chunks ++ [chunk]))
    (fun acc w hw => by
      have hcut := cutFrom_chunkOf h acc.length (hbounds w hw).1 (hbounds w hw).2
      refine ⟨_, ?_, ⟨_, rfl, hcut⟩, rfl⟩
      simp only [validated_of (hcut.valid (hbounds w hw).1 rfl), Except.ok_bind, Except.pure_eq_ok]) chunks
  have hcuts := forall₂_flatten_singletons hall
  refine ⟨parts.flatten, hparts, ⟨_, hcuts, ?_⟩, hnumbers⟩
  unfold windowsOf at hcuts ⊢
  by_cases hwhole : source.kind = .heading ∨ source.kind = .tableRow
  · rw [if_pos hwhole]
    simp only [decide_eq_true hwhole]
    exact windows_whole _ hpositive
  · rw [if_neg hwhole]
    simp only [decide_eq_false hwhole] at hcuts ⊢
    have hwindows := @windows_windowsFrom (source.capacity targetTokens) overlapTokens
      (finditer source.text).length 0 (Nat.lt_of_lt_of_le Nat.one_pos (Nat.le_max_left _ _)) hpositive
    refine ⟨hwindows, fun hroom chunk hchunk => ?_⟩
    obtain ⟨w, hw, hcut⟩ := exists_of_mem_forall₂ hcuts hchunk
    have hsize := (hwindows.size w hw).2
    have hcount := hcut.tokenCount
    unfold DocumentBlock.capacity at hsize
    omega

/-- A heading, and five words of data behind a prefix that leaves room for two of them. -/
def sampleDocument : ParsedDocument where
  format := .csv
  parser := "stdlib-csv"
  parserVersion := "1"
  blocks :=
    [{ kind := .heading, text := "A b".toList, locator := { charStart := 0, charEnd := 3 } },
      { kind := .data, text := "c d  e f g".toList, locator := { charStart := 5, charEnd := 15 },
        repeatPrefix := some "x | y".toList }]

end Agora.Ingestion.Chunking
