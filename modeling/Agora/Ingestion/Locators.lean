import Agora.Ingestion.Chunking

namespace Agora.Ingestion.Chunking

/-!
# Locators

The locator of a chunk says where its text stands in the document, and the chunks leave out nothing but
whitespace (`chunk_locators_resolve`).
-/

/-! ### Windows -/

theorem windowEnd_bounds (whole : Bool) {capacity n start : ℕ} (hcapacity : 0 < capacity) (h : start < n) :
    start < windowEnd whole capacity n start ∧ windowEnd whole capacity n start ≤ n := by
  unfold windowEnd
  split_ifs
  · exact ⟨h, Nat.le_refl n⟩
  · omega

section Windows

variable {whole : Bool} {capacity overlap n : ℕ} {hcapacity : 0 < capacity}

theorem bounds_of_mem_windows {start : ℕ} {w : ℕ × ℕ}
    (hw : w ∈ windows whole capacity overlap n hcapacity start) : w.1 < w.2 ∧ w.2 ≤ n := by
  fun_induction windows whole capacity overlap n hcapacity start with
  | case1 start h ih =>
    rcases List.mem_cons.mp hw with rfl | hw
    · exact windowEnd_bounds whole hcapacity h
    · split_ifs at hw with hlast
      · exact absurd hw List.not_mem_nil
      · exact ih hlast hw
  | case2 start h => exact absurd hw List.not_mem_nil

/-- Every word from here on is in a window. -/
theorem exists_window {start k : ℕ} (hstart : start ≤ k) (hk : k < n) :
    ∃ w ∈ windows whole capacity overlap n hcapacity start, w.1 ≤ k ∧ k < w.2 := by
  fun_induction windows whole capacity overlap n hcapacity start with
  | case1 start h ih =>
    by_cases hin : k < windowEnd whole capacity n start
    · exact ⟨_, List.mem_cons_self, hstart, hin⟩
    · have hnext : ¬ windowEnd whole capacity n start = n := by omega
      obtain ⟨w, hw, hwk⟩ := ih hnext (by omega)
      refine ⟨w, List.mem_cons_of_mem _ ?_, hwk⟩
      rw [if_neg hnext]
      exact hw
  | case2 start h => exact absurd (lt_of_le_of_lt hstart hk) h

end Windows

/-! ### Loops -/

/-- A loop that only appends. -/
theorem exists_foldlM_append {α β : Type} {f : List β → α → Py (List β)} {P : α → List β → Prop}
    {l : List α} (h : ∀ acc, ∀ a ∈ l, ∃ new, f acc a = .ok (acc ++ new) ∧ P a new) (acc : List β) :
    ∃ all, l.foldlM f acc = .ok (acc ++ all) ∧ (∀ b ∈ all, ∃ a ∈ l, ∃ new, P a new ∧ b ∈ new)
      ∧ ∀ a ∈ l, ∃ new, P a new ∧ ∀ b ∈ new, b ∈ all := by
  induction l generalizing acc with
  | nil => exact ⟨[], by rw [List.append_nil]; rfl, List.forall_mem_nil _, List.forall_mem_nil _⟩
  | cons a l ih =>
    obtain ⟨new, hnew, hP⟩ := h acc a List.mem_cons_self
    obtain ⟨all, hall, hfrom, hto⟩ := ih (fun acc a ha => h acc a (List.mem_cons_of_mem _ ha)) (acc ++ new)
    refine ⟨new ++ all, ?_, fun b hb => ?_, fun a' ha' => ?_⟩
    · rw [List.foldlM_cons, hnew, ← List.append_assoc]
      exact hall
    · rcases List.mem_append.mp hb with hb | hb
      · exact ⟨a, List.mem_cons_self, new, hP, hb⟩
      · obtain ⟨a', ha', hfrom⟩ := hfrom b hb
        exact ⟨a', List.mem_cons_of_mem _ ha', hfrom⟩
    · rcases List.mem_cons.mp ha' with rfl | ha'
      · exact ⟨new, hP, fun b hb => List.mem_append_left _ hb⟩
      · obtain ⟨new', hP', hmem⟩ := hto a' ha'
        exact ⟨new', hP', fun b hb => List.mem_append_right _ (hmem b hb)⟩

/-! ### Blocks -/

def ChunkLocator.span (l : ChunkLocator) : ℕ × ℕ := (l.charStart, l.charEnd)

/-- The text stands in the document where the locator says. -/
structure Resolves (text : List Char) (l : ChunkLocator) (part : List Char) : Prop where
  slice_eq : slice text l.charStart l.charEnd = part
  ordered : l.charStart < l.charEnd
  inside : l.charEnd ≤ text.length

theorem Resolves.length {text part : List Char} {l : ChunkLocator} (h : Resolves text l part) :
    part.length = l.charEnd - l.charStart := by
  rw [← h.slice_eq, length_slice h.inside]

theorem optionalNonBlank_none : OptionalNonBlank none := nofun

section Blocks

variable {kind : StructureKind} {text done p behind : List Char} {index : ℕ} {section? : Option (List Char)}

/-- The block of a paragraph. -/
theorem block_of_paragraph (hcr : '\r' ∉ p) (hindex : 1 ≤ index) (hsection : OptionalNonBlank section?)
    (offset : ℕ) (hne : strip p ≠ []) :
    let start := offset + (p.takeWhile isSpace).length
    let locator : ChunkLocator :=
      { paragraph := some index, section?, charStart := start, charEnd := start + (strip p).length }
    block kind p offset none (fun charStart charEnd =>
        { paragraph := some index, section?, charStart, charEnd })
      = .ok (some { kind, text := strip p, locator }) := by
  intro start locator
  obtain ⟨-, -, -, hlength⟩ := exists_eq_append_strip p
  have hpositive := List.length_pos_of_ne_nil hne
  have hlocator : locator.Valid := by
    refine ⟨nofun, fun k hk => ?_, nofun, nofun, hsection, nofun, nofun, ?_⟩
    · obtain rfl := Option.mem_some_iff.mp hk
      exact hindex
    · exact Nat.lt_add_of_pos_right hpositive
  unfold block
  simp only [normalizeNewlines_of_not_mem hcr, if_neg hne, ← hlength]
  rw [validated_of hlocator, Except.ok_bind,
    validated_of ⟨hne, strip_strip_ne_nil hne, optionalNonBlank_none⟩]
  rfl

theorem block_of_blank (hcr : '\r' ∉ p) (offset : ℕ) (place : ℕ → ℕ → ChunkLocator)
    (hblank : strip p = []) : block kind p offset none place = .ok none := by
  unfold block
  simp only [normalizeNewlines_of_not_mem hcr, if_pos hblank]

/-- What a paragraph of the text gives. -/
theorem exists_block (kind : StructureKind) (hcr : '\r' ∉ p) (hindex : 1 ≤ index)
    (hsection : OptionalNonBlank section?) (htext : text = done ++ p ++ behind) :
    ∃ item : Option DocumentBlock,
      block kind p done.length none (fun charStart charEnd =>
          { paragraph := some index, section?, charStart, charEnd }) = .ok item
        ∧ (∀ b ∈ item, b.repeatPrefix = none ∧ strip b.text ≠ [] ∧ Resolves text b.locator b.text)
        ∧ Within done.length (done.length + p.length) (item.toList.map (·.locator.span))
        ∧ ∀ i c, p[i]? = some c → isSpace c = false →
          ∃ b ∈ item, b.locator.charStart ≤ done.length + i ∧ done.length + i < b.locator.charEnd := by
  by_cases hne : strip p = []
  · refine ⟨none, block_of_blank hcr _ _ hne, nofun, Nat.le_add_right _ _, fun i c hc hspace => ?_⟩
    rw [strip_eq_nil.mp hne c (List.mem_of_getElem? hc)] at hspace
    cases hspace
  · obtain ⟨trailing, hp, -, -⟩ := exists_eq_append_strip p
    have hpositive := List.length_pos_of_ne_nil hne
    have hlength := congrArg List.length hp
    rw [List.length_append, List.length_append] at hlength
    have hinside := congrArg List.length htext
    rw [List.length_append, List.length_append] at hinside
    refine ⟨_, block_of_paragraph hcr hindex hsection done.length hne, ?_, ?_, ?_⟩
    · intro b hb
      obtain rfl := Option.mem_some_iff.mp hb
      refine ⟨rfl, strip_strip_ne_nil hne, ?_, ?_, ?_⟩
      · have hsplit : text = (done ++ p.takeWhile isSpace) ++ strip p ++ (trailing ++ behind) := by
          rw [htext]
          nth_rewrite 1 [hp]
          simp only [List.append_assoc]
        have hslice := slice_middle (done ++ p.takeWhile isSpace) (strip p) (trailing ++ behind)
        rw [← hsplit, List.length_append] at hslice
        exact hslice
      · exact Nat.lt_add_of_pos_right hpositive
      · show done.length + (p.takeWhile isSpace).length + (strip p).length ≤ text.length
        omega
    · refine ⟨Nat.le_add_right _ _, Nat.lt_add_of_pos_right hpositive, ?_⟩
      show done.length + (p.takeWhile isSpace).length + (strip p).length ≤ done.length + p.length
      omega
    · intro i c hc hspace
      have hall : Covered isSpace [(0, (strip p).length)] (strip p) := fun j d hd _ =>
        ⟨_, List.mem_singleton_self _, Nat.zero_le j, (List.getElem?_eq_some_iff.mp hd).1⟩
      obtain ⟨s, hs, hstart, hstop⟩ := hall.of_strip i c hc hspace
      obtain rfl := List.mem_singleton.mp hs
      refine ⟨_, rfl, ?_, ?_⟩
      · show done.length + (p.takeWhile isSpace).length ≤ done.length + i
        omega
      · show done.length + i < done.length + (p.takeWhile isSpace).length + (strip p).length
        omega

end Blocks

/-! ### Paragraphs -/

/-- The blocks stand where they say, in order, and cover the text from here on. -/
structure Located (text : List Char) (offset : ℕ) (blocks : List DocumentBlock) : Prop where
  resolves : ∀ b ∈ blocks, b.repeatPrefix = none ∧ strip b.text ≠ [] ∧ Resolves text b.locator b.text
  ordered : Within offset text.length (blocks.map (·.locator.span))
  covered : ∀ i c, text[i]? = some c → offset ≤ i → isSpace c = false →
    ∃ b ∈ blocks, b.locator.charStart ≤ i ∧ i < b.locator.charEnd

section Paragraphs

variable {classify : Option (List Char) → List Char → StructureKind × Option (List Char)} {text : List Char}

/-- The loop, from the paragraphs that are done on. -/
theorem exists_paragraphBlocks
    (hclassify : ∀ before p, OptionalNonBlank before → OptionalNonBlank (classify before p).2)
    (hcr : '\r' ∉ text) {paragraphs : List (List Char)} {done : List Char} {before : Option (List Char)}
    {index : ℕ} (htext : text = done ++ joinParagraphs paragraphs) (hne : paragraphs ≠ [])
    (hindex : 1 ≤ index) (hbefore : OptionalNonBlank before) :
    ∃ blocks, paragraphBlocks classify before index done.length paragraphs = .ok blocks
      ∧ Located text done.length blocks := by
  induction paragraphs generalizing done before index with
  | nil => exact absurd rfl hne
  | cons p ps ih =>
    have hpcr : '\r' ∉ p := by
      intro h
      rw [htext] at hcr
      exact hcr (List.mem_append_right _ (mem_joinParagraphs List.mem_cons_self h))
    cases ps with
    | nil =>
      have hlast : text = done ++ p ++ [] := by
        rw [htext, List.append_nil]
        rfl
      obtain ⟨item, hitem, hresolves, hwithin, hcovered⟩ :=
        exists_block (classify before p).1 hpcr hindex (hclassify before p hbefore) hlast
      have hlength := congrArg List.length hlast
      rw [List.append_nil, List.length_append] at hlength
      refine ⟨item.toList, ?_, fun b hb => hresolves b (Option.mem_toList.mp hb), ?_, ?_⟩
      · simp only [paragraphBlocks, hitem, Except.ok_bind, Except.pure_eq_ok, List.append_nil]
      · rw [hlength]
        exact hwithin
      · intro i c hc hi hspace
        rw [hlast, List.append_nil, List.getElem?_append_right hi] at hc
        obtain ⟨b, hb, hin⟩ := hcovered _ c hc hspace
        rw [Nat.add_sub_cancel' hi] at hin
        exact ⟨b, Option.mem_toList.mpr hb, hin⟩
    | cons q ps =>
      have hsplit : text = done ++ p ++ '\n' :: '\n' :: joinParagraphs (q :: ps) := by
        rw [htext, List.append_assoc]
        rfl
      have hrest : text = (done ++ p ++ ['\n', '\n']) ++ joinParagraphs (q :: ps) := by
        rw [hsplit, List.append_assoc _ ['\n', '\n']]
        rfl
      have hdone : (done ++ p ++ ['\n', '\n']).length = done.length + p.length + 2 := by
        simp only [List.length_append, List.length_cons, List.length_nil]
      obtain ⟨item, hitem, hresolves, hwithin, hcovered⟩ :=
        exists_block (classify before p).1 hpcr hindex (hclassify before p hbefore) hsplit
      obtain ⟨items, hitems, hlocated⟩ :=
        ih hrest (List.cons_ne_nil q ps) (Nat.le_succ_of_le hindex) (hclassify before p hbefore)
      rw [hdone] at hitems hlocated
      refine ⟨item.toList ++ items, ?_, fun b hb => ?_, ?_, fun i c hc hi hspace => ?_⟩
      · rw [paragraphBlocks]
        simp only [hitem, hitems, Except.ok_bind, Except.pure_eq_ok]
      · rcases List.mem_append.mp hb with hb | hb
        · exact hresolves b (Option.mem_toList.mp hb)
        · exact hlocated.resolves b hb
      · rw [List.map_append]
        exact hwithin.append (Nat.le_add_right _ 2) hlocated.ordered
      · -- In this paragraph, in the line breaks behind it, or in a later one.
        by_cases hlater : done.length + p.length + 2 ≤ i
        · obtain ⟨b, hb, hin⟩ := hlocated.covered i c hc hlater hspace
          exact ⟨b, List.mem_append_right _ hb, hin⟩
        · rw [hsplit, List.append_assoc, List.getElem?_append_right hi] at hc
          by_cases hhere : i - done.length < p.length
          · rw [List.getElem?_append_left hhere] at hc
            obtain ⟨b, hb, hin⟩ := hcovered _ c hc hspace
            rw [Nat.add_sub_cancel' hi] at hin
            exact ⟨b, List.mem_append_left _ (Option.mem_toList.mpr hb), hin⟩
          · rw [List.getElem?_append_right (Nat.le_of_not_lt hhere)] at hc
            have hbreak : i - done.length - p.length = 0 ∨ i - done.length - p.length = 1 := by omega
            have hnewline : c = '\n' := by
              rcases hbreak with hzero | hone
              · rw [hzero] at hc
                exact (Option.some.inj hc).symm
              · rw [hone] at hc
                exact (Option.some.inj hc).symm
            rw [hnewline] at hspace
            cases hspace

theorem exists_blocks_of_text
    (hclassify : ∀ before p, OptionalNonBlank before → OptionalNonBlank (classify before p).2)
    (decoded : List Char) :
    ∃ blocks, paragraphBlocks classify none 1 0 (splitParagraphs (normalizeNewlines decoded)) = .ok blocks
      ∧ Located (normalizeNewlines decoded) 0 blocks := by
  have htext : normalizeNewlines decoded
      = [] ++ joinParagraphs (splitParagraphs (normalizeNewlines decoded)) :=
    (joinParagraphs_splitParagraphs (normalizeNewlines decoded)).symm
  exact exists_paragraphBlocks hclassify (not_mem_normalizeNewlines decoded) htext (splitParagraphs_ne_nil _)
    (Nat.le_refl 1) optionalNonBlank_none

/-- The title of a section is not blank: it ends like the paragraph. -/
theorem optionalNonBlank_markdownKind (before : Option (List Char)) (p : List Char)
    (h : OptionalNonBlank before) : OptionalNonBlank (markdownKind before p).2 := by
  unfold markdownKind
  simp only
  split_ifs with hheading
  · obtain ⟨hfirst, hspace⟩ := hheading
    intro cs hcs
    obtain rfl := Option.mem_some_iff.mp hcs
    have hne : strip p ≠ [] := by
      intro hnil
      rw [hnil] at hfirst
      cases hfirst
    have htitle : (strip p).dropWhile (· = '#') ≠ [] := by
      intro hnil
      rw [hnil] at hspace
      cases hspace
    obtain ⟨marks, hmarks⟩ := List.dropWhile_suffix (l := strip p) (· = '#')
    have hlast : ((strip p).dropWhile (· = '#')).getLast? = (strip p).getLast? := by
      rw [← List.getLast?_append_of_ne_nil marks htitle, hmarks]
    rw [List.getLast?_eq_some_getLast hne] at hlast
    exact strip_strip_ne_nil (strip_ne_nil (List.mem_of_getLast? hlast) (isSpace_getLast_strip hne))
  · exact h

end Paragraphs

/-! ### Chunks -/

section Chunks

variable {text : List Char} {source : DocumentBlock}

/-- The first word of a window starts in the block, and the last one ends there after it. -/
theorem bounds_of_window (cs : List Char) {w : ℕ × ℕ} (hw : w.1 < w.2) (hn : w.2 ≤ (finditer cs).length) :
    ((finditer cs).getD w.1 (0, 0)).1 < ((finditer cs).getD (w.2 - 1) (0, 0)).2
      ∧ ((finditer cs).getD (w.2 - 1) (0, 0)).2 ≤ cs.length
      ∧ ∃ c, cs[((finditer cs).getD w.1 (0, 0)).1]? = some c ∧ isSpace c = false := by
  have hfirst : (finditer cs).getD w.1 (0, 0) ∈ finditer cs := by
    rw [List.getD_eq_getElem _ _ (by omega)]
    exact List.getElem_mem _
  have hlast : (finditer cs).getD (w.2 - 1) (0, 0) ∈ finditer cs := by
    rw [List.getD_eq_getElem _ _ (by omega)]
    exact List.getElem_mem _
  have hwithin := within_finditer cs
  have hmono := (hwithin.getD_mono (i := w.1) (j := w.2 - 1) (by omega) (by omega)).2
  have hword := hwithin.mem hfirst
  exact ⟨by omega, (hwithin.mem hlast).2.2, exists_first_of_mem_finditer hfirst⟩

/-- A chunk stands in the document where it says, and passes its own check. -/
theorem chunkOf_resolves (hrepeat : source.repeatPrefix = none)
    (h : Resolves text source.locator source.text) (ordinal : ℕ) {w : ℕ × ℕ} (hw : w.1 < w.2)
    (hn : w.2 ≤ (finditer source.text).length) :
    (chunkOf source (finditer source.text) ordinal w).Valid
      ∧ Resolves text (chunkOf source (finditer source.text) ordinal w).locator
        (chunkOf source (finditer source.text) ordinal w).text := by
  obtain ⟨hlt, hle, c, hc, hspace⟩ := bounds_of_window source.text hw hn
  have htext : (chunkOf source (finditer source.text) ordinal w).text
      = slice source.text ((finditer source.text).getD w.1 (0, 0)).1
        ((finditer source.text).getD (w.2 - 1) (0, 0)).2 := by
    unfold chunkOf
    simp only [hrepeat]
  have hlength := h.length
  have hordered := h.ordered
  have hinside := h.inside
  have hmem := mem_slice hc (Nat.le_refl _) hlt
  refine ⟨⟨?_, ?_⟩, ?_, Nat.add_lt_add_left hlt _, ?_⟩
  · rw [htext]
    exact List.ne_nil_of_mem hmem
  · show 0 < (finditer (chunkOf source (finditer source.text) ordinal w).text).length
    rw [htext]
    obtain ⟨i, hi⟩ := List.mem_iff_getElem?.mp hmem
    obtain ⟨s, hs, -⟩ := covered_finditer _ i c hi hspace
    exact List.length_pos_of_mem hs
  · have hslice := @slice_slice Char text source.locator.charStart source.locator.charEnd
      ((finditer source.text).getD w.1 (0, 0)).1 ((finditer source.text).getD (w.2 - 1) (0, 0)).2 (by omega)
    rw [h.slice_eq] at hslice
    rw [htext, hslice]
    rfl
  · show source.locator.charStart + ((finditer source.text).getD (w.2 - 1) (0, 0)).2 ≤ text.length
    omega

/-- What the chunks of a block are. -/
def ChunksOf (text : List Char) (source : DocumentBlock) (chunks : List DocumentChunk) : Prop :=
  (∀ chunk ∈ chunks, Resolves text chunk.locator chunk.text)
    ∧ ∀ i c, source.text[i]? = some c → isSpace c = false →
      ∃ chunk ∈ chunks, chunk.locator.charStart ≤ source.locator.charStart + i
        ∧ source.locator.charStart + i < chunk.locator.charEnd

/-- Every word of a block is in one of its chunks. -/
theorem exists_chunkBlock (targetTokens overlapTokens : ℕ) (hrepeat : source.repeatPrefix = none)
    (h : Resolves text source.locator source.text) (chunks : List DocumentChunk) :
    ∃ new, chunkBlock targetTokens overlapTokens chunks source = .ok (chunks ++ new)
      ∧ ChunksOf text source new := by
  have hbounds : ∀ w ∈ windowsOf targetTokens overlapTokens source,
      w.1 < w.2 ∧ w.2 ≤ (finditer source.text).length := fun w hw => bounds_of_mem_windows hw
  obtain ⟨new, hnew, hfrom, hto⟩ := exists_foldlM_append
    (P := fun w new => ∃ ordinal, new = [chunkOf source (finditer source.text) ordinal w])
    (f := fun chunks window => do
      let chunk := chunkOf source (finditer source.text) chunks.length window
      let chunk ← validated chunk.Valid chunk
      pure (chunks ++ [chunk]))
    (fun acc w hw => by
      obtain ⟨hvalid, -⟩ := chunkOf_resolves hrepeat h acc.length (hbounds w hw).1 (hbounds w hw).2
      refine ⟨_, ?_, acc.length, rfl⟩
      simp only [validated_of hvalid, Except.ok_bind, Except.pure_eq_ok]) chunks
  refine ⟨new, hnew, fun chunk hchunk => ?_, fun i c hc hspace => ?_⟩
  · obtain ⟨w, hw, _, ⟨ordinal, rfl⟩, hmem⟩ := hfrom chunk hchunk
    obtain rfl := List.mem_singleton.mp hmem
    exact (chunkOf_resolves hrepeat h ordinal (hbounds w hw).1 (hbounds w hw).2).2
  · -- The character is in a word, the word in a window, and the window in a chunk.
    obtain ⟨s, hs, hstart, hstop⟩ := covered_finditer source.text i c hc hspace
    obtain ⟨k, hk, rfl⟩ := List.getElem_of_mem hs
    obtain ⟨w, hw, hwk, hkw⟩ : ∃ w ∈ windowsOf targetTokens overlapTokens source, w.1 ≤ k ∧ k < w.2 :=
      exists_window (Nat.zero_le k) hk
    obtain ⟨_, ⟨ordinal, rfl⟩, hmem⟩ := hto w hw
    have hn := (hbounds w hw).2
    have hwithin := within_finditer source.text
    have hfirst := (hwithin.getD_mono hwk hk).1
    have hlast := (hwithin.getD_mono (i := k) (j := w.2 - 1) (by omega) (by omega)).2
    rw [List.getD_eq_getElem _ _ hk] at hfirst hlast
    refine ⟨_, hmem _ (List.mem_singleton_self _), ?_, ?_⟩
    · exact Nat.add_le_add_left (hfirst.trans hstart) _
    · exact Nat.add_lt_add_left (lt_of_lt_of_le hstop hlast) _

/-- The chunks of a document whose blocks stand where they say. -/
theorem exists_chunkDocument {document : ParsedDocument} (h : Located text 0 document.blocks)
    {targetTokens overlapTokens : ℤ} (htarget : 0 < targetTokens) (hoverlap : 0 ≤ overlapTokens)
    (hless : overlapTokens < targetTokens) :
    ∃ chunks, chunkDocument document targetTokens overlapTokens = .ok chunks
      ∧ (∀ chunk ∈ chunks, Resolves text chunk.locator chunk.text)
      ∧ Covered isSpace (chunks.map (·.locator.span)) text := by
  obtain ⟨chunks, hchunks, hfrom, hto⟩ := exists_foldlM_append (P := ChunksOf text)
    (f := chunkBlock targetTokens.toNat overlapTokens.toNat)
    (fun acc b hb => exists_chunkBlock _ _ (h.resolves b hb).1 (h.resolves b hb).2.2 acc) []
  refine ⟨chunks, ?_, fun chunk hchunk => ?_, fun i c hc hspace => ?_⟩
  · unfold chunkDocument
    rw [if_neg (Int.not_le.mpr htarget), if_neg (by omega)]
    exact hchunks
  · obtain ⟨b, -, new, hnew, hmem⟩ := hfrom chunk hchunk
    exact hnew.1 chunk hmem
  · obtain ⟨b, hb, hstart, hstop⟩ := h.covered i c hc (Nat.zero_le i) hspace
    obtain ⟨new, hnew, hmem⟩ := hto b hb
    have hinblock : b.text[i - b.locator.charStart]? = some c := by
      rw [← (h.resolves b hb).2.2.slice_eq, slice, List.getElem?_drop, Nat.add_sub_cancel' hstart,
        List.getElem?_take_of_lt hstop]
      exact hc
    obtain ⟨chunk, hchunk, hin⟩ := hnew.2 _ c hinblock hspace
    rw [Nat.add_sub_cancel' hstart] at hin
    exact ⟨_, List.mem_map_of_mem (hmem chunk hchunk), hin⟩

end Chunks

/-! ### Documents -/

section Documents

variable {others : DocumentFormat → Bytes → Py ParsedDocument} {format : DocumentFormat} {body : Bytes}
  {decoded : List Char}

/-- The parsers of the two text formats return. -/
theorem exists_parseFormat (hformat : format = .txt ∨ format = .markdown)
    (hdecode : decodeUtf8Sig body = some decoded) :
    ∃ document, parseFormat others format body = .ok document
      ∧ Located (normalizeNewlines decoded) 0 document.blocks := by
  rcases hformat with rfl | rfl
  · obtain ⟨blocks, hblocks, hlocated⟩ := @exists_blocks_of_text plainKind (fun _ _ _ => nofun) decoded
    refine ⟨{ format := .txt, parser := "stdlib-text", parserVersion := "1", blocks }, ?_, hlocated⟩
    simp [parseFormat, hdecode, plain, hblocks]
  · obtain ⟨blocks, hblocks, hlocated⟩ := exists_blocks_of_text optionalNonBlank_markdownKind decoded
    refine ⟨{ format := .markdown, parser := "agora-markdown", parserVersion := "1", blocks }, ?_, hlocated⟩
    simp [parseFormat, hdecode, markdown, hblocks]

/-- **Chunk locators.**  A text that is nothing but whitespace is refused.  Every other one is parsed and
    chunked: the places that a chunk gives are those of its text, every character but whitespace is in a
    chunk, and the blocks stand one after another. -/
theorem chunk_locators_resolve (hformat : format = .txt ∨ format = .markdown)
    (hdecode : decodeUtf8Sig body = some decoded) {targetTokens overlapTokens : ℤ}
    (htarget : 0 < targetTokens) (hoverlap : 0 ≤ overlapTokens) (hless : overlapTokens < targetTokens) :
    if strip (normalizeNewlines decoded) = [] then
      parseDocument others format body = .error (.permanentPortError
        (format.value ++ " document contains no extractable text") "document_parser")
    else ∃ document chunks, parseDocument others format body = .ok document
      ∧ chunkDocument document targetTokens overlapTokens = .ok chunks
      ∧ (∀ chunk ∈ chunks, slice (normalizeNewlines decoded) chunk.locator.charStart chunk.locator.charEnd
            = chunk.text
          ∧ chunk.locator.charStart < chunk.locator.charEnd
          ∧ chunk.locator.charEnd ≤ (normalizeNewlines decoded).length)
      ∧ (∀ i c, (normalizeNewlines decoded)[i]? = some c → isSpace c = false →
          ∃ chunk ∈ chunks, chunk.locator.charStart ≤ i ∧ i < chunk.locator.charEnd)
      ∧ document.blocks.Pairwise fun a b => a.locator.charEnd ≤ b.locator.charStart := by
  obtain ⟨document, hparse, hlocated⟩ := @exists_parseFormat others format body decoded hformat hdecode
  have hdocument : parseDocument others format body = if document.blocks = [] then
      .error (.permanentPortError (format.value ++ " document contains no extractable text") "document_parser")
      else .ok document := by
    unfold parseDocument
    rw [hparse]
  split_ifs with hblank
  · rw [hdocument, if_pos]
    -- A block would have a character that is not whitespace.
    by_contra hne
    obtain ⟨b, hb⟩ := List.exists_mem_of_ne_nil _ hne
    obtain ⟨-, htext, hresolves⟩ := hlocated.resolves b hb
    obtain ⟨c, hc, hspace⟩ := exists_of_strip_ne_nil htext
    rw [← hresolves.slice_eq] at hc
    exact strip_ne_nil (List.mem_of_mem_take (List.mem_of_mem_drop hc)) hspace hblank
  · obtain ⟨chunks, hchunks, hresolves, hcovered⟩ := exists_chunkDocument hlocated htarget hoverlap hless
    have hblocks : document.blocks ≠ [] := by
      intro hnil
      obtain ⟨c, hc, hspace⟩ := exists_of_strip_ne_nil hblank
      obtain ⟨i, hi⟩ := List.mem_iff_getElem?.mp hc
      obtain ⟨b, hb, -⟩ := hlocated.covered i c hi (Nat.zero_le i) hspace
      rw [hnil] at hb
      exact absurd hb List.not_mem_nil
    refine ⟨document, chunks, hdocument.trans (if_neg hblocks), hchunks, fun chunk hchunk => ?_,
      fun i c hc hspace => ?_, ?_⟩
    · exact ⟨(hresolves chunk hchunk).slice_eq, (hresolves chunk hchunk).ordered,
        (hresolves chunk hchunk).inside⟩
    · obtain ⟨s, hs, hin⟩ := hcovered i c hc hspace
      obtain ⟨chunk, hchunk, rfl⟩ := List.mem_map.mp hs
      exact ⟨chunk, hchunk, hin⟩
    · exact List.pairwise_map.mp hlocated.ordered.pairwise

end Documents

/-- A text with a byte order mark and two kinds of line breaks, and no other parsers. -/
theorem chunk_locators_resolve_bom :
    let body : Bytes := 0xEF :: 0xBB :: 0xBF :: utf8 "# A\r\n\r\n b c ".toList
    let decoded := "# A\r\n\r\n b c ".toList
    ∃ document chunks, parseDocument (fun _ _ => .error (.valueError "")) .markdown body = .ok document
      ∧ chunkDocument document 1 0 = .ok chunks
      ∧ (∀ chunk ∈ chunks, slice (normalizeNewlines decoded) chunk.locator.charStart chunk.locator.charEnd
            = chunk.text
          ∧ chunk.locator.charStart < chunk.locator.charEnd
          ∧ chunk.locator.charEnd ≤ (normalizeNewlines decoded).length)
      ∧ (∀ i c, (normalizeNewlines decoded)[i]? = some c → isSpace c = false →
          ∃ chunk ∈ chunks, chunk.locator.charStart ≤ i ∧ i < chunk.locator.charEnd)
      ∧ document.blocks.Pairwise fun a b => a.locator.charEnd ≤ b.locator.charStart := by
  intro body decoded
  have hdecode : decodeUtf8Sig body = some decoded := decodeUtf8_utf8 decoded
  have h := @chunk_locators_resolve (fun _ _ => .error (.valueError "")) .markdown body decoded (.inr rfl)
    hdecode 1 0 (by decide) (by decide) (by decide)
  rwa [if_neg (by decide)] at h

end Agora.Ingestion.Chunking
