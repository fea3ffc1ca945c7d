import Agora.Ingestion.Failures
import Agora.Ingestion.JsonPaths
import Agora.Lib.JsonDepth
import Agora.Lib.JsonRecord

namespace Agora.Ingestion

/-!
# Identities of chunks

A chunk is stored under the hash of its text and its locator, once in a document.  The blocks of a
document are at different places, and the chunks of a block start at different words, so no two
chunks have one locator; only in a JSON document two blocks may have one path
(`chunk_identities_iff`).
-/

namespace Chunking

/-! ### Places -/

/-- Where something is, apart from the offsets. -/
def ChunkLocator.place (l : ChunkLocator) : ChunkLocator := { l with charStart := 0, charEnd := 0 }

/-- The blocks are at different places. -/
def Elsewhere (b b' : DocumentBlock) : Prop := b.locator.place ≠ b'.locator.place

theorem elsewhere_of_ne {α : Type} {b b' : DocumentBlock} (f : ChunkLocator → α)
    (hf : ∀ l, f l.place = f l) (h : f b.locator ≠ f b'.locator) : Elsewhere b b' := by
  intro heq
  apply h
  rw [← hf b.locator, heq, hf]

/-- A text has one block at most, and the caller says where it is. -/
theorem places_of_block {kind : StructureKind} {text : List Char} {start : ℕ}
    {repeatPrefix : Option (List Char)} {place : ℕ → ℕ → ChunkLocator} {new : List DocumentBlock}
    (h : Option.toList <$> block kind text start repeatPrefix place = .ok new)
    (R : DocumentBlock → DocumentBlock → Prop) :
    new.Pairwise R ∧ ∀ b ∈ new, ∃ x y, b.locator = place x y := by
  obtain ⟨item, hitem, rfl⟩ := Except.map_eq_ok.mp h
  rw [eq_of_block hitem]
  split_ifs
  · exact ⟨List.Pairwise.nil, List.forall_mem_nil _⟩
  · exact ⟨List.pairwise_singleton _ _, List.forall_mem_singleton.mpr ⟨_, _, rfl⟩⟩

/-! ### Blocks of a document -/

section Blocks

theorem rows_elsewhere {sheet : Option (List Char)} {table : List Row} {blocks : List DocumentBlock}
    (h : rows sheet table = .ok blocks) :
    (blocks.Pairwise fun b b' => b.locator.row ≠ b'.locator.row)
      ∧ ∀ b ∈ blocks, b.locator.sheet = sheet := by
  have hout : ∀ s row new, rowsOut sheet s row = .ok new →
      (new.Pairwise fun b b' => b.locator.row ≠ b'.locator.row)
        ∧ ∀ b ∈ new, b.locator.row = some s.index ∧ b.locator.sheet = sheet := by
    intro s row new hnew
    unfold rowsOut at hnew
    by_cases hblank : stripBars (rendered row) = []
    · rw [if_pos hblank] at hnew
      cases hnew
      exact ⟨List.Pairwise.nil, List.forall_mem_nil _⟩
    · rw [if_neg hblank] at hnew
      obtain ⟨hpairwise, hplaces⟩ := places_of_block hnew _
      refine ⟨hpairwise, fun b hb => ?_⟩
      obtain ⟨x, y, hlocator⟩ := hplaces b hb
      rw [hlocator]
      exact ⟨rfl, rfl⟩
  constructor
  · refine (pairwise_collect (P := fun s b => ∃ k, b.locator.row = some k ∧ k < s.index)
      ?_ ?_ ?_ h).1
    · intro s row new hnew
      obtain ⟨hpairwise, hrow⟩ := hout s row new hnew
      exact ⟨hpairwise, fun b hb => ⟨s.index, (hrow b hb).1, Nat.lt_succ_self _⟩⟩
    · rintro s row b ⟨k, hk, hlt⟩
      exact ⟨k, hk, Nat.lt_succ_of_lt hlt⟩
    · rintro s row new hnew b ⟨k, hk, hlt⟩ b' hb'
      rw [hk, ((hout s row new hnew).2 b' hb').1]
      intro heq
      exact absurd (Option.some.inj heq) hlt.ne
  · intro b hb
    obtain ⟨before, row, behind, new, -, hnew, hmem⟩ := (mem_collect h).mp hb
    exact ((hout _ row new hnew).2 b hmem).2

theorem paragraphs_elsewhere
    {classify : Option (List Char) → List Char → StructureKind × Option (List Char)}
    {before : Option (List Char)} {index offset : ℕ} {paragraphs : List (List Char)}
    {blocks : List DocumentBlock}
    (h : paragraphBlocks classify before index offset paragraphs = .ok blocks) :
    blocks.Pairwise Elsewhere ∧ ∀ b ∈ blocks, ∃ k, b.locator.paragraph = some k ∧ index ≤ k := by
  induction paragraphs generalizing before index offset blocks with
  | nil =>
    cases h
    exact ⟨List.Pairwise.nil, List.forall_mem_nil _⟩
  | cons p paragraphs ih =>
    obtain ⟨item, hitem, h⟩ := Except.bind_eq_ok.mp h
    obtain ⟨items, hitems, h⟩ := Except.bind_eq_ok.mp h
    cases h
    obtain ⟨hpairwise, hplaces⟩ :=
      places_of_block (Except.map_eq_ok.mpr ⟨item, hitem, rfl⟩) Elsewhere
    obtain ⟨hrest, hlater⟩ := ih hitems
    have hfirst : ∀ b ∈ item.toList, b.locator.paragraph = some index := by
      intro b hb
      obtain ⟨x, y, hlocator⟩ := hplaces b hb
      rw [hlocator]
    rw [List.forall_mem_append]
    refine ⟨List.pairwise_append.mpr ⟨hpairwise, hrest, fun b hb b' hb' => ?_⟩, fun b hb => ?_,
      fun b hb => ?_⟩
    · obtain ⟨k, hk, hle⟩ := hlater b' hb'
      apply elsewhere_of_ne (·.paragraph) (fun _ => rfl)
      rw [hfirst b hb, hk]
      intro heq
      have := Option.some.inj heq
      omega
    · exact ⟨index, hfirst b hb, le_rfl⟩
    · obtain ⟨k, hk, hle⟩ := hlater b hb
      exact ⟨k, hk, Nat.le_of_succ_le hle⟩

theorem pages_elsewhere {pages : List (List Char)} {blocks : List DocumentBlock}
    (h : DocumentReaders.pageBlocks pages = .ok blocks) : blocks.Pairwise Elsewhere := by
  refine (pairwise_collect (P := fun index b => ∃ k, b.locator.page = some k ∧ k < index)
    ?_ ?_ ?_ h).1
  · intro index text new hnew
    obtain ⟨hpairwise, hplaces⟩ := places_of_block hnew Elsewhere
    refine ⟨hpairwise, fun b hb => ?_⟩
    obtain ⟨x, y, hlocator⟩ := hplaces b hb
    rw [hlocator]
    exact ⟨index, rfl, Nat.lt_succ_self _⟩
  · rintro index text b ⟨k, hk, hlt⟩
    exact ⟨k, hk, Nat.lt_succ_of_lt hlt⟩
  · rintro index text new hnew b ⟨k, hk, hlt⟩ b' hb'
    obtain ⟨x, y, hlocator⟩ := (places_of_block hnew Elsewhere).2 b' hb'
    apply elsewhere_of_ne (·.page) (fun _ => rfl)
    rw [hk, hlocator]
    intro heq
    exact absurd (Option.some.inj heq) hlt.ne

theorem docx_elsewhere {contents : List DocxContent} {blocks : List DocumentBlock}
    (h : docxBlocks contents = .ok blocks) : blocks.Pairwise Elsewhere := by
  -- What is behind is a paragraph or a table, with a number that has been given.
  refine (pairwise_collect (P := fun s b =>
    (b.locator.table = none ∧ ∃ k, b.locator.paragraph = some k ∧ k ≤ s.paragraphIndex)
      ∨ ∃ t, b.locator.table = some t ∧ t ≤ s.tableIndex) ?_ ?_ ?_ h).1
  · intro s content new hnew
    cases content with
    | paragraph style text =>
      obtain ⟨hpairwise, hplaces⟩ := places_of_block hnew Elsewhere
      refine ⟨hpairwise, fun b hb => ?_⟩
      obtain ⟨x, y, hlocator⟩ := hplaces b hb
      rw [hlocator]
      exact .inl ⟨rfl, _, rfl, le_rfl⟩
    | table table =>
      obtain ⟨found, hfound, hnew⟩ := Except.bind_eq_ok.mp hnew
      cases hnew
      refine ⟨List.pairwise_map.mpr ?_, List.forall_mem_map.mpr fun b _ => .inr ⟨_, rfl, le_rfl⟩⟩
      refine (rows_elsewhere hfound).1.imp ?_
      intro b b' hrow
      exact elsewhere_of_ne (·.row) (fun _ => rfl) hrow
  · intro s content b hb
    cases content with
    | paragraph style text =>
      rcases hb with ⟨hnone, k, hk, hle⟩ | ht
      · exact .inl ⟨hnone, k, hk, Nat.le_succ_of_le hle⟩
      · exact .inr ht
    | table table =>
      rcases hb with hk | ⟨t, ht, hle⟩
      · exact .inl hk
      · exact .inr ⟨t, ht, Nat.le_succ_of_le hle⟩
  · intro s content new hnew b hb b' hb'
    cases content with
    | paragraph style text =>
      obtain ⟨x, y, hlocator⟩ := (places_of_block hnew Elsewhere).2 b' hb'
      rcases hb with ⟨-, k, hk, hle⟩ | ⟨t, ht, -⟩
      · apply elsewhere_of_ne (·.paragraph) (fun _ => rfl)
        rw [hk, hlocator]
        intro heq
        have hnumber : k = s.paragraphIndex + 1 := Option.some.inj heq
        omega
      · apply elsewhere_of_ne (·.table) (fun _ => rfl)
        rw [ht, hlocator]
        nofun
    | table table =>
      obtain ⟨found, -, hnew⟩ := Except.bind_eq_ok.mp hnew
      cases hnew
      obtain ⟨b', -, rfl⟩ := List.mem_map.mp hb'
      apply elsewhere_of_ne (·.table) (fun _ => rfl)
      rcases hb with ⟨hnone, -⟩ | ⟨t, ht, hle⟩
      · rw [hnone]
        nofun
      · rw [ht]
        intro heq
        have hnumber : t = s.tableIndex + 1 := Option.some.inj heq
        omega

theorem html_elsewhere {nodes : List HtmlNode} {blocks : List DocumentBlock}
    (h : htmlBlocks nodes = .ok blocks) : blocks.Pairwise Elsewhere := by
  -- What is behind is a node that has been numbered, or a row of a table that has been counted.
  refine (pairwise_collect (P := fun s b => (∃ k, b.locator.paragraph = some k ∧ k < s.index)
    ∨ (b.locator.paragraph = none ∧ ∃ t k, b.locator.table = some (t + 1) ∧ b.locator.row = some k
      ∧ k ≤ s.rowCounts t)) ?_ ?_ ?_ h).1
  · intro s node new hnew
    cases node with
    | heading text | paragraph text =>
      obtain ⟨hpairwise, hplaces⟩ := places_of_block hnew Elsewhere
      refine ⟨hpairwise, fun b hb => ?_⟩
      obtain ⟨x, y, hlocator⟩ := hplaces b hb
      rw [hlocator]
      exact .inl ⟨_, rfl, Nat.lt_succ_self _⟩
    | row table cells =>
      rcases table with _ | table
      · cases hnew
      obtain ⟨hpairwise, hplaces⟩ := places_of_block hnew Elsewhere
      refine ⟨hpairwise, fun b hb => ?_⟩
      obtain ⟨x, y, hlocator⟩ := hplaces b hb
      rw [hlocator]
      exact .inr ⟨rfl, table, _, rfl, rfl, le_rfl⟩
  · intro s node b hb
    rcases hb with ⟨k, hk, hlt⟩ | ⟨hnone, t, k, ht, hk, hle⟩
    · have hindex : (htmlNext s node).index = s.index + 1 := by
        fun_cases htmlNext s node <;> rfl
      refine .inl ⟨k, hk, ?_⟩
      rw [hindex]
      exact Nat.lt_succ_of_lt hlt
    · refine .inr ⟨hnone, t, k, ht, hk, hle.trans ?_⟩
      rcases node with _ | _ | ⟨_ | table, cells⟩
      · exact le_rfl
      · exact le_rfl
      · exact le_rfl
      · rw [rowCounts_htmlNext]
        split_ifs with heq
        · rw [heq]
          exact Nat.le_succ _
        · exact le_rfl
  · intro s node new hnew b hb b' hb'
    cases node with
    | heading text | paragraph text =>
      obtain ⟨x, y, hlocator⟩ := (places_of_block hnew Elsewhere).2 b' hb'
      apply elsewhere_of_ne (·.paragraph) (fun _ => rfl)
      rw [hlocator]
      rcases hb with ⟨k, hk, hlt⟩ | ⟨hnone, -⟩
      · rw [hk]
        intro heq
        exact absurd (Option.some.inj heq) hlt.ne
      · rw [hnone]
        rintro ⟨⟩
    | row table cells =>
      rcases table with _ | table
      · cases hnew
      obtain ⟨x, y, hlocator⟩ := (places_of_block hnew Elsewhere).2 b' hb'
      rcases hb with ⟨k, hk, -⟩ | ⟨-, t, k, ht, hk, hle⟩
      · apply elsewhere_of_ne (·.paragraph) (fun _ => rfl)
        rw [hk, hlocator]
        rintro ⟨⟩
      · by_cases htable : t = table
        · subst htable
          apply elsewhere_of_ne (·.row) (fun _ => rfl)
          rw [hk, hlocator]
          intro heq
          have hcount : k = (htmlNext s (.row (some t) cells)).rowCounts t := Option.some.inj heq
          rw [rowCounts_htmlNext, if_pos rfl] at hcount
          omega
        · apply elsewhere_of_ne (·.table) (fun _ => rfl)
          rw [ht, hlocator]
          intro heq
          exact htable (Nat.succ.inj (Option.some.inj heq))

theorem xlsx_elsewhere {sheets : List Sheet} (htitles : (sheets.map (·.title)).Nodup)
    {parts : List (List DocumentBlock)}
    (h : (sheets.mapM fun sheet => rows (some sheet.title) sheet.rows) = .ok parts) :
    parts.flatten.Pairwise Elsewhere := by
  have hparts := Except.mapM_eq_ok_iff.mp h
  rw [List.pairwise_flatten]
  constructor
  · intro part hpart
    obtain ⟨sheet, -, hsheet⟩ := exists_of_mem_forall₂ hparts hpart
    refine (rows_elsewhere hsheet).1.imp ?_
    intro b b' hrow
    exact elsewhere_of_ne (·.row) (fun _ => rfl) hrow
  · apply pairwise_of_forall₂ (List.pairwise_map.mp htitles) hparts
    intro sheet sheet' part part' hsheet hsheet' hne b hb b' hb'
    apply elsewhere_of_ne (·.sheet) (fun _ => rfl)
    rw [(rows_elsewhere hsheet).2 b hb, (rows_elsewhere hsheet').2 b' hb']
    intro heq
    exact hne (Option.some.inj heq)

/-- Blocks that are at different places, if their paths are texts. -/
def LocatedBlock.Elsewhere (b b' : LocatedBlock) : Prop :=
  ∀ d d', b.resolved = some d → b'.resolved = some d' → Chunking.Elsewhere d d'

theorem located_elsewhere {document : ParsedDocument} (h : document.blocks.Pairwise Elsewhere) :
    document.located.blocks.Pairwise LocatedBlock.Elsewhere := by
  refine List.pairwise_map.mpr (h.imp ?_)
  intro b b' hb d d' hd hd'
  cases hd
  cases hd'
  exact hb

/-- What is documented of the readers: no two sheets have one title, and no dict has a key twice. -/
structure DocumentReaders.Regular (r : DocumentReaders) : Prop where
  titles : ∀ body sheets, r.xlsx body = .ok sheets → (sheets.map (·.title)).Nodup
  keys : ∀ text v, r.loads text = .ok v → v.UniqueKeys

variable {r : DocumentReaders} {format : DocumentFormat} {body : Bytes}

theorem elements_elsewhere (hr : r.Regular) {elements : Elements}
    (h : r.structured.elements format body = .ok elements) {blocks : List DocumentBlock}
    (hblocks : elements.blocks = .ok blocks) : blocks.Pairwise Elsewhere := by
  cases elements with
  | csv table =>
    refine (rows_elsewhere hblocks).1.imp ?_
    intro b b' hrow
    exact elsewhere_of_ne (·.row) (fun _ => rfl) hrow
  | docx contents => exact docx_elsewhere hblocks
  | html nodes => exact html_elsewhere hblocks
  | xlsx sheets =>
    obtain ⟨parts, hparts, rfl⟩ := Except.map_eq_ok.mp hblocks
    have hsheets : r.xlsx body = .ok sheets := by
      unfold Readers.elements at h
      split at h
      · obtain ⟨text, -, h⟩ := Except.bind_eq_ok.mp h
        obtain ⟨table, -, h⟩ := Except.map_eq_ok.mp h
        cases h
      · obtain ⟨contents, -, h⟩ := Except.map_eq_ok.mp h
        cases h
      · obtain ⟨found, hfound, h⟩ := Except.map_eq_ok.mp h
        cases h
        exact hfound
      · obtain ⟨text, -, h⟩ := Except.bind_eq_ok.mp h
        obtain ⟨nodes, -, h⟩ := Except.map_eq_ok.mp h
        cases h
      · cases h
    exact xlsx_elsewhere (hr.titles body sheets hsheets) hparts

/-- The blocks of scalars with different paths are at different places. -/
theorem json_elsewhere {stack : Stack} {v : Value} {blocks : List LocatedBlock}
    (h : gather (Node.blocks stack) (nodes v 0 DocumentReaders.rootPath) = .ok blocks)
    (hnodup : v.leafPaths.Nodup) : blocks.Pairwise LocatedBlock.Elsewhere := by
  have hpaths := jsonPaths_of_gather visible_of_mem_rootNodes h
  have hdistinct : (blocks.map (·.jsonPath)).Nodup := by
    rw [hpaths]
    have hsome := (List.nodup_map_iff (Option.some_injective PyStr)).mpr hnodup
    rw [Value.leafPaths, List.map_map] at hsome
    exact hsome
  have hpath : ∀ b ∈ blocks, b.jsonPath.isSome = true := by
    intro b hb
    have hmem : b.jsonPath ∈ blocks.map (·.jsonPath) := List.mem_map_of_mem hb
    rw [hpaths] at hmem
    obtain ⟨node, -, hnode⟩ := List.mem_map.mp hmem
    rw [← hnode]
    rfl
  have hresolved {b : LocatedBlock} {d : DocumentBlock} (hsome : b.jsonPath.isSome = true)
      (hd : b.resolved = some d) : ∃ cs, d.locator.jsonPath = some cs
        ∧ b.jsonPath = some (PyStr.ofChars cs) := by
    unfold LocatedBlock.resolved at hd
    split at hd
    · rename_i hnone
      rw [hnone] at hsome
      cases hsome
    · rename_i path hjson
      obtain ⟨cs, hcs, rfl⟩ := Option.map_eq_some_iff.mp hd
      exact ⟨cs, rfl, by rw [hjson, PyStr.eq_ofChars_of_chars? hcs]⟩
  refine (List.pairwise_map.mp hdistinct).imp_of_mem fun hb hb' hne d d' hd hd' => ?_
  obtain ⟨cs, hcs, hb⟩ := hresolved (hpath _ hb) hd
  obtain ⟨cs', hcs', hb'⟩ := hresolved (hpath _ hb') hd'
  apply elsewhere_of_ne (·.jsonPath) (fun _ => rfl)
  rw [hcs, hcs']
  intro heq
  obtain rfl := Option.some.inj heq
  exact hne (hb.trans hb'.symm)

/-- **Places.**  The blocks of a document are at different places; those of a JSON document if no
    two of its scalars have one path. -/
theorem parse_elsewhere (hr : r.Regular) {document : LocatedDocument}
    (h : r.parse format body = .ok document)
    (hpaths : format = .json → ∀ text v, decodeUtf8Sig body = some text → r.loads text = .ok v →
      v.leafPaths.Nodup) : document.blocks.Pairwise LocatedBlock.Elsewhere := by
  cases parses_of_parse h with
  | text hblocks => exact located_elsewhere (paragraphs_elsewhere hblocks).1
  | pages hblocks => exact located_elsewhere (pages_elsewhere hblocks)
  | elements helements hblocks => exact located_elsewhere (elements_elsewhere hr helements hblocks)
  | json htext hv hblocks => exact json_elsewhere hblocks (hpaths rfl _ _ htext hv)

end Blocks

/-! ### Chunks of a block -/

/-- A window starts behind the start of the one before. -/
theorem starts_increase {capacity retained : ℕ} (h : retained < capacity) {ws : List (ℕ × ℕ)}
    (hfull : ∀ w ∈ ws.dropLast, w.2 = w.1 + capacity)
    (hoverlap : ws.IsChain fun v w => w.1 + retained = v.2) : ws.IsChain fun v w => v.1 < w.1 := by
  induction ws with
  | nil => exact List.IsChain.nil
  | cons v ws ih =>
    cases ws with
    | nil => exact List.IsChain.singleton v
    | cons w ws =>
      rw [List.isChain_cons_cons] at hoverlap ⊢
      rw [List.dropLast_cons_of_ne_nil (List.cons_ne_nil w ws), List.forall_mem_cons] at hfull
      refine ⟨?_, ih hfull.2 hoverlap.2⟩
      have hend := hfull.1
      have hnext := hoverlap.1
      omega

theorem WindowsFrom.pairwise {start n capacity retained : ℕ} {ws : List (ℕ × ℕ)}
    (h : WindowsFrom start n capacity retained ws) (hretained : retained < capacity) :
    (ws.Pairwise fun v w => v.1 < w.1) ∧ ∀ w ∈ ws, w.1 < n := by
  have : IsTrans (ℕ × ℕ) fun v w => v.1 < w.1 := ⟨fun _ _ _ => Nat.lt_trans⟩
  have hpairwise := List.isChain_iff_pairwise.mp (starts_increase hretained h.full h.overlap)
  refine ⟨hpairwise, ?_⟩
  obtain ⟨last, hlast, hend⟩ := h.last
  obtain ⟨init, rfl⟩ := List.getLast?_eq_some_iff.mp hlast
  have hlt := (h.size last (by simp)).1
  rw [List.pairwise_append] at hpairwise
  intro w hw
  rcases List.mem_append.mp hw with hw | hw
  · have hbefore := hpairwise.2.2 w hw last List.mem_cons_self
    omega
  · obtain rfl := List.mem_singleton.mp hw
    omega

/-- A word starts behind the starts of the words before. -/
theorem start_lt_start (cs : List Char) {i j : ℕ} (hij : i < j) (hj : j < (finditer cs).length) :
    ((finditer cs).getD i (0, 0)).1 < ((finditer cs).getD j (0, 0)).1 := by
  have hi := hij.trans hj
  have hwithin := within_finditer cs
  rw [List.getD_eq_getElem _ _ hi, List.getD_eq_getElem _ _ hj]
  have hbefore := List.pairwise_iff_getElem.mp hwithin.pairwise i j hi hj hij
  have hfirst := hwithin.mem (List.getElem_mem hi)
  omega

theorem CutFrom.place_eq {source : DocumentBlock} {w : ℕ × ℕ} {chunk : DocumentChunk}
    (h : CutFrom source w chunk) : chunk.locator.place = source.locator.place := by
  have hplace := congrArg ChunkLocator.place h.place
  exact hplace

/-- The chunks of a block are at its place, and start one behind the other. -/
theorem BlockChunks.locators {targetTokens overlapTokens : ℕ} {source : DocumentBlock}
    {chunks : List DocumentChunk} (h : BlockChunks targetTokens overlapTokens source chunks) :
    (chunks.Pairwise fun a b => a.locator ≠ b.locator)
      ∧ ∀ chunk ∈ chunks, chunk.locator.place = source.locator.place := by
  obtain ⟨ws, hcuts, hws⟩ := h
  constructor
  · have hstarts : ws.Pairwise fun v w => v.1 < w.1 ∧ w.1 < (finditer source.text).length := by
      split_ifs at hws
      · rw [hws]
        exact List.pairwise_singleton _ _
      · have hcapacity : min overlapTokens (source.capacity targetTokens - 1)
            < source.capacity targetTokens := by
          unfold DocumentBlock.capacity
          omega
        obtain ⟨hpairwise, hlt⟩ := hws.1.pairwise hcapacity
        exact hpairwise.imp_of_mem fun _ hw hless => ⟨hless, hlt _ hw⟩
    apply pairwise_of_forall₂ hstarts hcuts
    intro v w a b ha hb hless heq
    have hword := start_lt_start source.text hless.1 hless.2
    have hsame := congrArg ChunkLocator.charStart heq
    rw [ha.charStart, hb.charStart] at hsame
    omega
  · intro chunk hchunk
    obtain ⟨w, -, hcut⟩ := exists_of_mem_forall₂ hcuts hchunk
    exact hcut.place_eq

theorem locators_nodup {targetTokens overlapTokens : ℕ} {sources : List DocumentBlock}
    {parts : List (List DocumentChunk)} (hsources : sources.Pairwise Elsewhere)
    (h : List.Forall₂ (BlockChunks targetTokens overlapTokens) sources parts) :
    (parts.flatten.map (·.locator)).Nodup := by
  refine List.pairwise_map.mpr (List.pairwise_flatten.mpr ⟨?_, ?_⟩)
  · intro part hpart
    obtain ⟨source, -, hblock⟩ := exists_of_mem_forall₂ h hpart
    exact hblock.locators.1
  · apply pairwise_of_forall₂ hsources h
    intro source source' part part' hpart hpart' helsewhere a ha b hb heq
    apply helsewhere
    rw [← hpart.locators.2 a ha, ← hpart'.locators.2 b hb, heq]

/-! ### Chunks of a document -/

/-- What is chunked has paths that are texts. -/
theorem exists_resolved {document : LocatedDocument} (hvalid : ∀ b ∈ document.blocks, b.block.Valid)
    {targetTokens overlapTokens : ℤ} (htarget : 0 < targetTokens) (hoverlap : 0 ≤ overlapTokens)
    (hless : overlapTokens < targetTokens) {chunks : List DocumentChunk}
    (h : document.chunks targetTokens overlapTokens = .ok chunks) :
    ∃ sources : List DocumentBlock,
      document.blocks.map LocatedBlock.resolved = sources.map some
      ∧ (∀ b ∈ sources, b.Valid)
      ∧ chunkDocument { document with blocks := sources } targetTokens overlapTokens
        = .ok chunks := by
  have hresolved := (exists_chunks_iff hvalid htarget hoverlap hless).mp ⟨chunks, h⟩
  obtain ⟨sources, hsources⟩ : ∃ sources : List DocumentBlock,
      document.blocks.map LocatedBlock.resolved = sources.map some := by
    generalize document.blocks = blocks at hresolved
    clear h hvalid
    induction blocks with
    | nil => exact ⟨[], rfl⟩
    | cons b blocks ih =>
      obtain ⟨hb, hblocks⟩ := List.forall_mem_cons.mp hresolved
      obtain ⟨source, hsource⟩ := Option.isSome_iff_exists.mp hb
      obtain ⟨sources, hsources⟩ := ih hblocks
      exact ⟨source :: sources, by rw [List.map_cons, hsource, hsources, List.map_cons]⟩
  refine ⟨sources, hsources, fun b hb => ?_, ?_⟩
  · have hmem : some b ∈ document.blocks.map LocatedBlock.resolved := by
      rw [hsources]
      exact List.mem_map_of_mem hb
    obtain ⟨source, hsource, hsome⟩ := List.mem_map.mp hmem
    exact valid_of_resolved hsome (hvalid source hsource)
  · unfold LocatedDocument.chunks at h
    unfold chunkDocument
    rw [if_neg (Int.not_le.mpr htarget), if_neg (by omega)] at h ⊢
    rw [← foldlM_resolved hsources]
    exact h

/-- A chunk has the hash of its text and its locator. -/
theorem contentHash_of_chunkDocument {document : ParsedDocument} {targetTokens overlapTokens : ℤ}
    (htarget : 0 < targetTokens) (hoverlap : 0 ≤ overlapTokens)
    (hless : overlapTokens < targetTokens) {chunks : List DocumentChunk}
    (h : chunkDocument document targetTokens overlapTokens = .ok chunks) :
    ∀ chunk ∈ chunks, chunk.contentHash = digest chunk.text chunk.locator := by
  unfold chunkDocument at h
  rw [if_neg (Int.not_le.mpr htarget), if_neg (by omega)] at h
  refine of_foldlM (P := fun chunks : List DocumentChunk =>
    ∀ chunk ∈ chunks, chunk.contentHash = digest chunk.text chunk.locator) ?_
    (List.forall_mem_nil _) h
  intro before source after hbefore hafter
  refine of_foldlM (P := fun chunks : List DocumentChunk =>
    ∀ chunk ∈ chunks, chunk.contentHash = digest chunk.text chunk.locator) ?_ hbefore hafter
  intro acc w acc' hacc hacc'
  obtain ⟨chunk, hchunk, hacc'⟩ := Except.bind_eq_ok.mp hacc'
  cases hacc'
  unfold validated at hchunk
  split_ifs at hchunk
  cases hchunk
  exact List.forall_mem_append.mpr ⟨hacc, List.forall_mem_singleton.mpr rfl⟩

/-- The chunks of a document are those of its blocks. -/
theorem exists_blockChunks {document : ParsedDocument} (hvalid : ∀ b ∈ document.blocks, b.Valid)
    {targetTokens overlapTokens : ℤ} (htarget : 0 < targetTokens) (hoverlap : 0 ≤ overlapTokens)
    (hless : overlapTokens < targetTokens) {chunks : List DocumentChunk}
    (h : chunkDocument document targetTokens overlapTokens = .ok chunks) :
    ∃ parts : List (List DocumentChunk), chunks = parts.flatten
      ∧ List.Forall₂ (BlockChunks targetTokens.toNat overlapTokens.toNat) document.blocks
        parts := by
  obtain ⟨parts, hparts, hall, -⟩ := exists_foldlM_numbered (·.ordinal)
    (f := chunkBlock targetTokens.toNat overlapTokens.toNat)
    (fun acc b hb => exists_chunkBlock_windows (hvalid b hb) overlapTokens.toNat acc) []
  refine ⟨parts, ?_, hall⟩
  unfold chunkDocument at h
  rw [if_neg (Int.not_le.mpr htarget), if_neg (by omega)] at h
  exact Except.ok.inj (h.symm.trans hparts)

/-- No two chunks of a document whose blocks are at different places have one locator. -/
theorem chunks_apart {document : LocatedDocument} (hvalid : ∀ b ∈ document.blocks, b.block.Valid)
    (helsewhere : document.blocks.Pairwise LocatedBlock.Elsewhere) {targetTokens overlapTokens : ℤ}
    (htarget : 0 < targetTokens) (hoverlap : 0 ≤ overlapTokens)
    (hless : overlapTokens < targetTokens) {chunks : List DocumentChunk}
    (h : document.chunks targetTokens overlapTokens = .ok chunks) :
    (chunks.map (·.locator)).Nodup
      ∧ ∀ chunk ∈ chunks, chunk.contentHash = digest chunk.text chunk.locator := by
  obtain ⟨sources, hsources, hsourcesValid, hchunks⟩ :=
    exists_resolved hvalid htarget hoverlap hless h
  refine ⟨?_, contentHash_of_chunkDocument htarget hoverlap hless hchunks⟩
  have happart : sources.Pairwise Elsewhere := by
    have hforall : List.Forall₂ (fun b d => LocatedBlock.resolved b = some d) document.blocks
        sources := by
      have hpairs := List.forall₂_eq_eq_eq ▸ hsources
      exact List.forall₂_map_left_iff.mp (List.forall₂_map_right_iff.mp hpairs)
    exact pairwise_of_forall₂ helsewhere hforall fun _ _ _ _ hd hd' hb => hb _ _ hd hd'
  obtain ⟨parts, rfl, hblocks⟩ := @exists_blockChunks { document with blocks := sources }
    hsourcesValid _ _ htarget hoverlap hless _ hchunks
  exact locators_nodup happart hblocks

/-! ### Hashes -/

/-- What `_digest` hashes. -/
def preimage (text : List Char) (locator : ChunkLocator) : Bytes :=
  utf8 (Json.obj
    [(PyStr.ofString "chunker_version", .text "agora-whitespace-v1"),
      (PyStr.ofString "locator", locator.modelDump),
      (PyStr.ofString "text", .str (PyStr.ofChars text))]).canonical

theorem digest_eq (text : List Char) (locator : ChunkLocator) :
    digest text locator = Marl.sha256Hash (preimage text locator) := rfl

theorem apart_optionalInt (a b : Option ℕ) : Json.Apart (optionalInt a) (optionalInt b) := by
  cases a with
  | none =>
    cases b with
    | none => exact Json.apart_self _
    | some n => exact Json.apart_null_nat n
  | some m =>
    cases b with
    | none => exact Json.Apart.symm (Json.apart_null_nat m)
    | some n => exact Json.apart_nat m n

theorem apart_optionalText (a b : Option (List Char)) :
    Json.Apart (optionalText a) (optionalText b) := by
  cases a with
  | none =>
    cases b with
    | none => exact Json.apart_self _
    | some ds => exact Json.apart_null_str _
  | some cs =>
    cases b with
    | none => exact Json.Apart.symm (Json.apart_null_str _)
    | some ds => exact Json.apart_str cs ds

theorem apart_modelDump (l l' : ChunkLocator) : Json.Apart l.modelDump l'.modelDump := by
  apply @Json.apart_obj
    [(PyStr.ofString "page", optionalInt l.page, optionalInt l'.page),
      (PyStr.ofString "section", optionalText l.section?, optionalText l'.section?),
      (PyStr.ofString "paragraph", optionalInt l.paragraph, optionalInt l'.paragraph),
      (PyStr.ofString "table", optionalInt l.table, optionalInt l'.table),
      (PyStr.ofString "row", optionalInt l.row, optionalInt l'.row),
      (PyStr.ofString "sheet", optionalText l.sheet, optionalText l'.sheet),
      (PyStr.ofString "json_path", optionalText l.jsonPath, optionalText l'.jsonPath),
      (PyStr.ofString "char_start", .int l.charStart, .int l'.charStart),
      (PyStr.ofString "char_end", .int l.charEnd, .int l'.charEnd)]
  simp only [List.forall_mem_cons, List.not_mem_nil, false_implies, implies_true, and_true]
  exact ⟨apart_optionalInt _ _, apart_optionalText _ _, apart_optionalInt _ _,
    apart_optionalInt _ _, apart_optionalInt _ _, apart_optionalText _ _, apart_optionalText _ _,
    Json.apart_nat _ _, Json.apart_nat _ _⟩

theorem optionalInt_injective : Function.Injective optionalInt := by
  intro a b h
  cases a with
  | none => cases b with
    | none => rfl
    | some n => cases h
  | some m => cases b with
    | none => cases h
    | some n => rw [Int.ofNat.inj (Json.int.inj h)]

theorem optionalText_injective : Function.Injective optionalText := by
  intro a b h
  cases a with
  | none => cases b with
    | none => rfl
    | some n => cases h
  | some cs => cases b with
    | none => cases h
    | some ds =>
      have hchars := congrArg PyStr.chars? (Json.str.inj h)
      rw [PyStr.chars?_ofChars, PyStr.chars?_ofChars] at hchars
      exact hchars

theorem modelDump_injective : Function.Injective ChunkLocator.modelDump := by
  intro l l' h
  unfold ChunkLocator.modelDump at h
  simp only [Json.obj.injEq, List.cons.injEq, Prod.mk.injEq, true_and, and_true, Json.int.injEq,
    Nat.cast_inj, optionalInt_injective.eq_iff, optionalText_injective.eq_iff] at h
  obtain ⟨hpage, hsection, hparagraph, htable, hrow, hsheet, hpath, hstart, hend⟩ := h
  obtain ⟨page, section?, paragraph, table, row, sheet, jsonPath, charStart, charEnd⟩ := l
  obtain ⟨page', section', paragraph', table', row', sheet', jsonPath', charStart', charEnd'⟩ := l'
  subst hpage hsection hparagraph htable hrow hsheet hpath hstart hend
  rfl

/-- **Preimages.**  The bytes that are hashed tell the locator. -/
theorem locator_of_preimage {text text' : List Char} {l l' : ChunkLocator}
    (h : preimage text l = preimage text' l') : l = l' := by
  have happart := @Json.apart_obj
    [(PyStr.ofString "chunker_version", .text "agora-whitespace-v1", .text "agora-whitespace-v1"),
      (PyStr.ofString "locator", l.modelDump, l'.modelDump),
      (PyStr.ofString "text", .str (PyStr.ofChars text), .str (PyStr.ofChars text'))] (by
    simp only [List.forall_mem_cons, List.not_mem_nil, false_implies, implies_true, and_true]
    exact ⟨Json.apart_self _, apart_modelDump l l', Json.apart_str text text'⟩)
  have hobj := happart.eq_of_canonical (utf8_injective h)
  simp only [List.map_cons, Json.obj.injEq, List.cons.injEq, Prod.mk.injEq, true_and] at hobj
  exact modelDump_injective hobj.1

/-- No two of the chunks hash to one hash from different bytes. -/
def CollisionFree (chunks : List DocumentChunk) : Prop :=
  ∀ a ∈ chunks, ∀ b ∈ chunks,
    Marl.sha256Hash (preimage a.text a.locator) = Marl.sha256Hash (preimage b.text b.locator) →
      preimage a.text a.locator = preimage b.text b.locator

theorem hashes_nodup {chunks : List DocumentChunk} (hlocators : (chunks.map (·.locator)).Nodup)
    (hdigest : ∀ chunk ∈ chunks, chunk.contentHash = digest chunk.text chunk.locator)
    (h : CollisionFree chunks) : (chunks.map (·.contentHash)).Nodup := by
  refine List.pairwise_map.mpr ((List.pairwise_map.mp hlocators).imp_of_mem ?_)
  intro a b ha hb hne heq
  rw [hdigest a ha, hdigest b hb, digest_eq, digest_eq] at heq
  exact hne (locator_of_preimage (h a ha b hb heq))

end Chunking

open Chunking (DocumentReaders Value decodeUtf8Sig CollisionFree)

/-! ### What is stored -/

/-- `uq_chunks_content_identity`. -/
def KnowledgeChunkRow.contentIdentity (row : KnowledgeChunkRow) :
    UUID × UUID × ℕ × String × String :=
  (row.workspaceId, row.documentId, 0, row.contentHash.text, row.chunkerVersion)

/-- The rows that `complete` is given. -/
def chunkRows (c : IngestSourceInput) (chunks : List Chunking.DocumentChunk) :
    List KnowledgeChunkRow := (chunks.map Chunking.DocumentChunk.kept).map (chunkOf c)

/-- The tables keep the identity of chunks, and `fk_chunks_document_workspace`. -/
structure KnowledgeTables.Keyed (s : KnowledgeTables) : Prop where
  identities : (s.chunks.map (·.contentIdentity)).Nodup
  documents : ∀ row ∈ s.chunks, s.hasDocument row = true

/-- The locators of the chunks are different, and so are their hashes and their identities in tables
    that have no such document yet. -/
structure DistinctChunks (c : IngestSourceInput) (chunks : List Chunking.DocumentChunk) : Prop where
  locators : (chunks.map (·.locator)).Nodup
  hashes : CollisionFree chunks → (chunks.map (·.contentHash)).Nodup
  identities : CollisionFree chunks → ∀ s : KnowledgeTables, s.Keyed →
    s.document? c.documentId = none →
      ((s.chunks ++ chunkRows c chunks).map (·.contentIdentity)).Nodup

theorem Keyed.documentId_ne {s : KnowledgeTables} (h : s.Keyed) {id : UUID}
    (hnone : s.document? id = none) : ∀ row ∈ s.chunks, row.documentId ≠ id := by
  rintro row hrow rfl
  have hdocument := h.documents row hrow
  unfold KnowledgeTables.hasDocument at hdocument
  rw [Bool.and_eq_true, List.any_eq_true] at hdocument
  obtain ⟨-, document, hmem, hsame⟩ := hdocument
  have hid : document.id = row.documentId := by simpa using (Bool.and_eq_true_iff.mp hsame).2
  have habsent := List.find?_eq_none.mp hnone document hmem
  simp [hid] at habsent

theorem distinctChunks_of {c : IngestSourceInput} {chunks : List Chunking.DocumentChunk}
    (hlocators : (chunks.map (·.locator)).Nodup)
    (hdigest : ∀ chunk ∈ chunks, chunk.contentHash = Chunking.digest chunk.text chunk.locator) :
    DistinctChunks c chunks where
  locators := hlocators
  hashes := Chunking.hashes_nodup hlocators hdigest
  identities hfree s hs hnone := by
    have hhashes := Chunking.hashes_nodup hlocators hdigest hfree
    rw [List.map_append, List.nodup_append]
    refine ⟨hs.identities, ?_, ?_⟩
    · rw [chunkRows, List.map_map, List.map_map]
      refine List.pairwise_map.mpr ((List.pairwise_map.mp hhashes).imp ?_)
      intro a b hne heq
      apply hne
      have htext : a.contentHash.text = b.contentHash.text :=
        congrArg (fun i : UUID × UUID × ℕ × String × String => i.2.2.2.1) heq
      cases ha : a.contentHash
      cases hb : b.contentHash
      rw [ha, hb] at htext
      cases htext
      rfl
    · intro i hi j hj heq
      obtain ⟨row, hrow, rfl⟩ := List.mem_map.mp hi
      obtain ⟨new, hnew, rfl⟩ := List.mem_map.mp hj
      obtain ⟨kept, -, rfl⟩ := List.mem_map.mp hnew
      have hid : row.documentId = c.documentId :=
        congrArg (fun i : UUID × UUID × ℕ × String × String => i.2.1) heq
      exact Keyed.documentId_ne hs hnone row hrow hid

/-- Chunks are told apart, and so are the scalars of a JSON document by their paths. -/
structure Identified (r : DocumentReaders) (c : IngestSourceInput) (format : DocumentFormat)
    (body : Bytes) : Prop where
  chunks : ∀ document chunks (targetTokens overlapTokens : ℤ), 0 < targetTokens →
    0 ≤ overlapTokens → overlapTokens < targetTokens →
      r.parseDocument format body = .ok document →
        document.chunks targetTokens overlapTokens = .ok chunks → DistinctChunks c chunks
  paths : format = .json → ∀ text v, decodeUtf8Sig body = some text → r.loads text = .ok v →
    v.leafPaths.Nodup

theorem parse_of_parseDocument {r : DocumentReaders} {format : DocumentFormat} {body : Bytes}
    {document : Chunking.LocatedDocument} (h : r.parseDocument format body = .ok document) :
    r.parse format body = .ok document := by
  unfold DocumentReaders.parseDocument at h
  split at h
  · split_ifs at h
  · rename_i parsed hparsed
    split_ifs at h
    cases h
    exact hparsed

/-- **Identities.**  The chunks of a document are told apart, and the paths of a JSON document too,
    unless it is a JSON document with a path that can be read in two ways. -/
theorem chunk_identities_iff {r : DocumentReaders} (hr : r.Regular) (c : IngestSourceInput)
    (format : DocumentFormat) (body : Bytes) :
    Identified r c format body
      ↔ (format = .json → ∀ text v, decodeUtf8Sig body = some text → r.loads text = .ok v →
        v.Unambiguous) := by
  constructor
  · intro h hformat text v htext hv
    exact (Chunking.nodup_leafPaths_iff (hr.keys text v hv)).mp (h.paths hformat text v htext hv)
  · intro h
    have hpaths : format = .json → ∀ text v, decodeUtf8Sig body = some text →
        r.loads text = .ok v → v.leafPaths.Nodup := fun hformat text v htext hv =>
      (Chunking.nodup_leafPaths_iff (hr.keys text v hv)).mpr (h hformat text v htext hv)
    refine ⟨?_, hpaths⟩
    intro document chunks targetTokens overlapTokens htarget hoverlap hless hdocument hchunks
    have hparse := parse_of_parseDocument hdocument
    obtain ⟨hlocators, hdigest⟩ := Chunking.chunks_apart (Chunking.valid_of_parse hparse)
      (Chunking.parse_elsewhere hr hparse hpaths) htarget hoverlap hless hchunks
    exact distinctChunks_of hlocators hdigest

/-! ### A key that is written like a way -/

theorem regular_plainReaders (limit : ℕ) : (plainReaders limit).Regular where
  titles body sheets h := by
    obtain rfl := Except.ok.inj h
    exact List.nodup_nil
  keys text v h := by
    obtain ⟨j, hj, rfl⟩ := Except.map_eq_ok.mp h
    exact Chunking.uniqueKeys_ofJson j (Json.uniqueKeys_of_loads hj)

namespace Chunking

/-- The key `b` under `a`, and the key `a.b`. -/
def dotted : List Char := "\x7b\"a\":\x7b\"b\":1\x7d,\"a.b\":1\x7d".toList

def dottedJson : Json :=
  .obj [(PyStr.ofString "a", .obj [(PyStr.ofString "b", .int 1)]), (PyStr.ofString "a.b", .int 1)]

/-- The path of both scalars. -/
def dottedPath : PyStr := PyStr.ofString "$.a.b"

def dottedBlock : LocatedBlock where
  block := { kind := .data, text := ['1'], locator := { charStart := 0, charEnd := 1 } }
  jsonPath := some dottedPath

def dottedSource : DocumentBlock where
  kind := .data
  text := ['1']
  locator := { jsonPath := some "$.a.b".toList, charStart := 0, charEnd := 1 }

def dottedDocument : LocatedDocument where
  format := .json
  parser := "stdlib-json"
  parserVersion := "1"
  blocks := [dottedBlock, dottedBlock]

def dottedChunk (ordinal : ℕ) : DocumentChunk :=
  chunkOf dottedSource (finditer dottedSource.text) ordinal (0, 1)

theorem decode_dotted : decodeUtf8Sig (utf8 dotted) = some dotted := by decide +kernel

theorem loads_dotted : (plainReaders 99999).loads dotted = .ok (Value.ofJson dottedJson) := by
  have htext : dotted = dottedJson.canonical := by decide +kernel
  have hloads : Json.loads 99999 dottedJson.canonical = .ok dottedJson :=
    (Json.loads_canonical_iff (by decide +kernel) (by decide +kernel)).mpr
      ⟨rfl, by decide +kernel⟩
  show Value.ofJson <$> Json.loads 99999 dotted = _
  rw [htext, hloads]
  rfl

theorem nodes_dotted : nodes (Value.ofJson dottedJson) 0 DocumentReaders.rootPath =
    [⟨0, PyStr.ofString "$", none⟩, ⟨1, PyStr.ofString "$.a", none⟩,
      ⟨2, dottedPath, some (.ofText (PyStr.ofString "1"))⟩,
      ⟨1, dottedPath, some (.ofText (PyStr.ofString "1"))⟩] := by
  have hvalue : Value.ofJson dottedJson = .dict
      [(PyStr.ofString "a",
          .dict [(PyStr.ofString "b", .scalar (.ofText (PyStr.ofString "1")))]),
        (PyStr.ofString "a.b", .scalar (.ofText (PyStr.ofString "1")))] := rfl
  rw [hvalue]
  simp only [nodes, entryNodes]
  unfold sortKeys
  -- The keys are sorted already.
  rw [List.mergeSort_of_pairwise, List.mergeSort_of_pairwise]
  · rfl
  · simp
  · decide

theorem parseDocument_dotted :
    (plainReaders 99999).parseDocument .json (utf8 dotted) = .ok dottedDocument := by
  have hwalk : gather (Node.blocks (plainReaders 99999).stack)
      (nodes (Value.ofJson dottedJson) 0 DocumentReaders.rootPath)
        = .ok [dottedBlock, dottedBlock] := by
    rw [nodes_dotted]
    rfl
  have hparse : (plainReaders 99999).parse .json (utf8 dotted) = .ok dottedDocument := by
    unfold DocumentReaders.parse
    simp only [textOf_eq_ok.mpr decode_dotted, Except.ok_bind, loads_dotted, walk_eq, hwalk]
    rfl
  unfold DocumentReaders.parseDocument
  rw [hparse]
  rfl

theorem chunks_dotted :
    dottedDocument.chunks 500 50 = .ok [dottedChunk 0, dottedChunk 1] := by
  have hwindows : windowsOf 500 50 dottedSource = [(0, 1)] := by
    have hwhole :
        decide (dottedSource.kind = .heading ∨ dottedSource.kind = .tableRow) = false := by
      decide
    have hwords : (finditer dottedSource.text).length = 1 := by decide
    unfold windowsOf
    simp only [hwords, hwhole]
    rw [windows, if_pos Nat.one_pos]
    simp [windowEnd]
  have hstep (chunks : List DocumentChunk) : chunkLocatedBlock 500 50 chunks dottedBlock
      = .ok (chunks ++ [dottedChunk chunks.length]) := by
    have hcut : CutFrom dottedSource (0, 1) (dottedChunk chunks.length) :=
      cutFrom_chunkOf (by decide) _ (by decide) (by decide)
    have hresolved : dottedBlock.resolved = some dottedSource := by decide +kernel
    unfold chunkLocatedBlock chunkBlock
    rw [hresolved]
    simp only [hwindows, List.foldlM_cons, List.foldlM_nil]
    show (validated (dottedChunk chunks.length).Valid (dottedChunk chunks.length) >>= _) >>= _ = _
    rw [validated_of (hcut.valid (by decide) rfl)]
    rfl
  show [dottedBlock, dottedBlock].foldlM (chunkLocatedBlock 500 50) [] = _
  simp only [List.foldlM_cons, List.foldlM_nil, hstep]
  rfl

end Chunking

theorem notBlank_dotted : isBlank "Minutes" = false ∧ isBlank "Minutes of the council" = false
    ∧ isBlank "application/json" = false ∧ isBlank "artifacts" = false := by
  decide

def dottedInput : IngestSourceInput := { sampleInput with
  mediaType := "application/json"
  sizeBytes := 21
  declaredContentHash :=
    ⟨"sha256:f0a12c6a448680a05a282356c933348cbe97fcebfb51a7439bde803b9a1e6905", by decide⟩
  objectKey := "sources/f0a12c6a448680a05a282356c933348cbe97fcebfb51a7439bde803b9a1e6905"
  notBlank := notBlank_dotted
  contentAddressed := by decide }

theorem chunk_identities_dotted :
    Identified (plainReaders 99999) dottedInput .json (utf8 Chunking.dotted)
      ↔ (DocumentFormat.json = .json → ∀ text v,
        decodeUtf8Sig (utf8 Chunking.dotted) = some text →
          (plainReaders 99999).loads text = .ok v → v.Unambiguous) :=
  chunk_identities_iff (regular_plainReaders 99999) dottedInput .json (utf8 Chunking.dotted)

/-- The two chunks have one locator and one identity, and the tables refuse them. -/
theorem not_identified_dotted :
    ¬ Identified (plainReaders 99999) dottedInput .json (utf8 Chunking.dotted)
      ∧ ∃ document chunks,
        (plainReaders 99999).parseDocument .json (utf8 Chunking.dotted) = .ok document
          ∧ document.chunks 500 50 = .ok chunks
          ∧ ¬ (chunks.map (·.locator)).Nodup
          ∧ ¬ ((chunkRows dottedInput chunks).map (·.contentIdentity)).Nodup := by
  have hlocators : ¬ ([Chunking.dottedChunk 0, Chunking.dottedChunk 1].map (·.locator)).Nodup := by
    intro h
    exact (List.nodup_cons.mp h).1 List.mem_cons_self
  have hhash : (Chunking.dottedChunk 0).contentHash = (Chunking.dottedChunk 1).contentHash := rfl
  refine ⟨fun h => hlocators ?_, _, _, Chunking.parseDocument_dotted, Chunking.chunks_dotted,
    hlocators, fun h => (List.nodup_cons.mp h).1 (List.mem_singleton.mpr ?_)⟩
  · exact (h.chunks _ _ 500 50 (by decide) (by decide) (by decide) Chunking.parseDocument_dotted
      Chunking.chunks_dotted).locators
  · exact congrArg (fun hash : Marl.Hash =>
      (dottedInput.workspaceId, dottedInput.documentId, 0, hash.text, "agora-whitespace-v1")) hhash

end Agora.Ingestion
