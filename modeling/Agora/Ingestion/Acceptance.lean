import Agora.Ingestion.Elements
import Agora.Ingestion.Locators

namespace Agora.Ingestion.Chunking

/-!
# Which documents with structure are accepted

A title or a header that is blank is carried to the elements behind it, and the validators of those refuse
it.  A document is accepted exactly if something in it is shown and no element that is shown has such a
title or header (`exists_parseDocument_iff`).
-/

/-! ### Blocks -/

/-- The block of a text that is not blank. -/
def blockOf (kind : StructureKind) (text : List Char) (start : ℕ) (repeatPrefix : Option (List Char))
    (place : ℕ → ℕ → ChunkLocator) : DocumentBlock :=
  let lineNormalized := normalizeNewlines text
  let leading := lineNormalized.length - (lstrip lineNormalized).length
  { kind, text := strip lineNormalized, repeatPrefix,
    locator := place (start + leading) (start + leading + (strip lineNormalized).length) }

section Blocks

variable {kind : StructureKind} {text : List Char} {start : ℕ} {repeatPrefix : Option (List Char)}
  {place : ℕ → ℕ → ChunkLocator} {item : Option DocumentBlock}

theorem block_eq : block kind text start repeatPrefix place
    = if strip text = [] then .ok none
      else if (blockOf kind text start repeatPrefix place).locator.Valid ∧ OptionalNonBlank repeatPrefix
        then .ok (some (blockOf kind text start repeatPrefix place))
        else .error (.valueError "validation error") := by
  unfold block
  simp only [strip_normalizeNewlines_eq_nil]
  by_cases hblank : strip text = []
  · rw [if_pos hblank, if_pos hblank]
  · rw [if_neg hblank, if_neg hblank]
    have hne : strip (normalizeNewlines text) ≠ [] := mt strip_normalizeNewlines_eq_nil.mp hblank
    generalize hb : blockOf kind text start repeatPrefix place = b
    have htext : b.text = strip (normalizeNewlines text) := by
      rw [← hb]
      rfl
    have hprefix : b.repeatPrefix = repeatPrefix := by
      rw [← hb]
      rfl
    have hvalid : b.Valid ↔ OptionalNonBlank repeatPrefix := by
      unfold DocumentBlock.Valid
      rw [htext, hprefix, and_iff_right hne, and_iff_right (strip_strip_ne_nil hne)]
    subst hb
    show (validated (blockOf kind text start repeatPrefix place).locator.Valid _ >>= fun _ => _) = _
    by_cases hlocator : (blockOf kind text start repeatPrefix place).locator.Valid
    · rw [validated_of hlocator, Except.ok_bind]
      show some <$> validated (blockOf kind text start repeatPrefix place).Valid _ = _
      by_cases hall : OptionalNonBlank repeatPrefix
      · rw [if_pos ⟨hlocator, hall⟩, validated_of (hvalid.mpr hall)]
        rfl
      · rw [if_neg fun h => hall h.2, validated, if_neg fun h => hall (hvalid.mp h)]
        rfl
    · rw [if_neg fun h => hlocator h.1, validated, if_neg hlocator]
      rfl

/-- A text that is not blank has a block. -/
theorem eq_of_block (h : block kind text start repeatPrefix place = .ok item) :
    item = if strip text = [] then none else some (blockOf kind text start repeatPrefix place) := by
  rw [block_eq] at h
  split_ifs at h ⊢
  · exact (Except.ok.inj h).symm
  · exact (Except.ok.inj h).symm

theorem toList_ne_nil_iff (h : block kind text start repeatPrefix place = .ok item) :
    item.toList ≠ [] ↔ strip text ≠ [] := by
  rw [eq_of_block h]
  split_ifs with hblank
  · exact iff_of_false (not_not.mpr rfl) (not_not.mpr hblank)
  · exact iff_of_true (List.cons_ne_nil _ _) hblank

/-- Whether there is a block, or none because the text is blank. -/
theorem exists_block_iff {V : Prop} (hplace : ∀ b e, b < e → ((place b e).Valid ↔ V)) :
    (∃ new, Option.toList <$> block kind text start repeatPrefix place = .ok new)
      ↔ (strip text ≠ [] → V ∧ OptionalNonBlank repeatPrefix) := by
  rw [block_eq]
  by_cases hblank : strip text = []
  · rw [if_pos hblank]
    exact ⟨fun _ h => absurd hblank h, fun _ => ⟨[], rfl⟩⟩
  · have hne : strip (normalizeNewlines text) ≠ [] := mt strip_normalizeNewlines_eq_nil.mp hblank
    have hvalid : (blockOf kind text start repeatPrefix place).locator.Valid ↔ V :=
      hplace _ _ (Nat.lt_add_of_pos_right (List.length_pos_of_ne_nil hne))
    rw [if_neg hblank, ← hvalid]
    split_ifs with h
    · exact ⟨fun _ _ => h, fun _ => ⟨_, rfl⟩⟩
    · refine ⟨?_, fun hall => absurd (hall hblank) h⟩
      rintro ⟨new, hnew⟩
      cases hnew

end Blocks

/-! ### Rows -/

/-- A row of more than bars and blanks. -/
def Row.Kept (row : Row) : Prop := stripBars (rendered row) ≠ []

instance (row : Row) : Decidable row.Kept := by
  unfold Row.Kept
  infer_instance

/-- A row that has a block. -/
def Row.Shown (row : Row) : Prop := row.Kept ∧ strip (rendered row) ≠ []

instance (row : Row) : Decidable row.Shown := by
  unfold Row.Shown
  infer_instance

/-- The rendering of the row that becomes the header. -/
def headerOf (table : List Row) : Option (List Char) := (table.find? fun row => row.Kept).map rendered

/-- The header is not blank, if there is something to show. -/
def TableAccepted (sheet : Option (List Char)) (table : List Row) : Prop :=
  (∃ row ∈ table, row.Shown) → OptionalNonBlank sheet ∧ OptionalNonBlank (headerOf table)

section Rows

variable {sheet : Option (List Char)} {table before behind : List Row} {row : Row}

theorem find?_kept (h : row.Kept) (behind : List Row) :
    (row :: behind).find? (fun row => row.Kept) = some row :=
  List.find?_cons_of_pos (decide_eq_true h)

theorem foldl_rowsNext (table : List Row) :
    table.foldl rowsNext {} = { header := headerOf table, index := table.length + 1 } := by
  induction table using List.reverseRecOn with
  | nil => rfl
  | append_singleton table row ih =>
    rw [List.foldl_concat, ih, rowsNext, headerOf, headerOf, List.find?_append, List.length_append]
    by_cases hkept : row.Kept
    · rw [find?_kept hkept, if_neg hkept]
      cases table.find? fun row => row.Kept <;> rfl
    · have hfind : [row].find? (fun row => row.Kept) = none := List.find?_cons_of_neg (by simpa using hkept)
      rw [hfind, if_pos (not_not.mp hkept), Option.or_none]
      rfl

/-- The header does not change behind a row that is kept. -/
theorem headerOf_append (hkept : row.Kept) (behind : List Row) :
    headerOf (before ++ row :: behind) = headerOf (before ++ [row]) := by
  unfold headerOf
  rw [List.find?_append, List.find?_append, find?_kept hkept, find?_kept hkept]

theorem header_rowsNext (before : List Row) (row : Row) :
    (rowsNext (before.foldl rowsNext {}) row).header = headerOf (before ++ [row]) := by
  have h := foldl_rowsNext (before ++ [row])
  rw [List.foldl_concat] at h
  rw [h]

theorem exists_rowsOut_iff :
    (∃ new, rowsOut sheet (before.foldl rowsNext {}) row = .ok new)
      ↔ (row.Shown → OptionalNonBlank sheet ∧ OptionalNonBlank (headerOf (before ++ [row]))) := by
  unfold rowsOut
  by_cases hkept : row.Kept
  · rw [if_neg hkept, exists_block_iff (V := OptionalNonBlank sheet), header_rowsNext, foldl_rowsNext]
    · show (_ → _ ∧ OptionalNonBlank (if 1 < before.length + 1 then headerOf (before ++ [row]) else none)) ↔ _
      rw [Row.Shown, and_iff_right hkept]
      by_cases hfirst : 1 < before.length + 1
      · rw [if_pos hfirst]
      · -- The first row is its own header.
        obtain rfl := List.length_eq_zero_iff.mp (by omega : before.length = 0)
        have hheader : headerOf [row] = some (rendered row) := by
          rw [headerOf, find?_kept hkept]
          rfl
        rw [if_neg hfirst, List.nil_append, hheader]
        refine forall_congr' fun hne => and_congr_right fun _ => ?_
        refine iff_of_true nofun fun cs hcs => ?_
        obtain rfl := Option.mem_some_iff.mp hcs
        exact hne
    · intro b e hlt
      rw [foldl_rowsNext]
      unfold ChunkLocator.Valid OptionalPositive OptionalNonBlank
      simp [hlt]
  · rw [if_pos (not_not.mp hkept)]
    exact iff_of_true ⟨[], rfl⟩ fun h => absurd h.1 hkept

/-- **Tables.**  When the rows of a table are blocks. -/
theorem exists_rows_iff : (∃ blocks, rows sheet table = .ok blocks) ↔ TableAccepted sheet table := by
  unfold rows
  rw [exists_collect_iff]
  simp only [exists_rowsOut_iff]
  constructor
  · rintro h ⟨row, hrow, hshown⟩
    obtain ⟨before, behind, rfl⟩ := List.append_of_mem hrow
    rw [headerOf_append hshown.1 behind]
    exact h before row behind rfl hshown
  · rintro h before row behind rfl hshown
    rw [← headerOf_append hshown.1 behind]
    exact h ⟨row, List.mem_append_right _ List.mem_cons_self, hshown⟩

/-- What a row that is shown becomes. -/
theorem eq_of_rowsOut {s : RowsState} {new : List DocumentBlock} (h : rowsOut sheet s row = .ok new) :
    new = if row.Shown then
      [blockOf .tableRow (rendered row) 0 (if 1 < s.index then (rowsNext s row).header else none)
        fun charStart charEnd => { table := some 1, row := some s.index, sheet, charStart, charEnd }]
      else [] := by
  unfold rowsOut at h
  by_cases hkept : row.Kept
  · rw [if_neg hkept] at h
    obtain ⟨item, hitem, rfl⟩ := Except.map_eq_ok.mp h
    rw [eq_of_block hitem]
    by_cases hblank : strip (rendered row) = []
    · rw [if_pos hblank, if_neg fun hshown => hshown.2 hblank]
      rfl
    · have hshown : row.Shown := ⟨hkept, hblank⟩
      rw [if_neg hblank, if_pos hshown]
      rfl
  · rw [if_pos (not_not.mp hkept)] at h
    rw [if_neg fun hshown => hkept hshown.1]
    exact (Except.ok.inj h).symm

theorem rows_ne_nil_iff {blocks : List DocumentBlock} (h : rows sheet table = .ok blocks) :
    blocks ≠ [] ↔ ∃ row ∈ table, row.Shown := by
  refine collect_ne_nil_iff (fun s row new hnew => ?_) h
  rw [eq_of_rowsOut hnew]
  by_cases hshown : row.Shown
  · rw [if_pos hshown]
    exact iff_of_true (List.cons_ne_nil _ _) hshown
  · rw [if_neg hshown]
    exact iff_of_false (not_not.mpr rfl) hshown

end Rows

/-! ### Paragraphs and tables -/

/-- The title that a heading gives. -/
def DocxContent.title? : DocxContent → Option (List Char)
  | .paragraph style text => if isHeading style then some (strip text) else none
  | .table _ => none

/-- The title of the last heading. -/
def docxSection (contents : List DocxContent) : Option (List Char) :=
  (contents.filterMap DocxContent.title?).getLast?

/-- A paragraph that is not blank, nor a heading, has a section whose title is not blank. -/
def DocxContent.Accepted (before : List DocxContent) : DocxContent → Prop
  | .paragraph style text =>
    isHeading style = false → strip text ≠ [] → OptionalNonBlank (docxSection before)
  | .table cells => TableAccepted none (cells.map (·.map some))

def DocxContent.Shown : DocxContent → Prop
  | .paragraph _ text => strip text ≠ []
  | .table cells => ∃ row ∈ cells, Row.Shown (row.map some)

section Docx

variable {before behind contents : List DocxContent} {content : DocxContent}

theorem section_docxNext (contents : List DocxContent) :
    (contents.foldl docxNext {}).section? = docxSection contents := by
  induction contents using List.reverseRecOn with
  | nil => rfl
  | append_singleton contents content ih =>
    rw [List.foldl_concat, docxSection, List.filterMap_append]
    cases content with
    | table cells => exact ih.trans (congrArg List.getLast? (List.append_nil _)).symm
    | paragraph style text =>
      by_cases hheading : isHeading style = true
      · have htitle : [DocxContent.paragraph style text].filterMap DocxContent.title? = [strip text] :=
          List.filterMap_cons_some (if_pos hheading)
        rw [htitle, List.getLast?_concat]
        exact if_pos hheading
      · have htitle : [DocxContent.paragraph style text].filterMap DocxContent.title? = [] :=
          List.filterMap_cons_none (if_neg hheading)
        rw [htitle, List.append_nil]
        exact (if_neg hheading).trans ih

theorem exists_docxOut_iff :
    (∃ new, docxOut (before.foldl docxNext {}) content = .ok new) ↔ content.Accepted before := by
  cases content with
  | paragraph style text =>
    have hsection : (docxNext (before.foldl docxNext {}) (.paragraph style text)).section?
        = if isHeading style = true then some (strip text) else docxSection before := by
      rw [← section_docxNext]
      rfl
    unfold docxOut
    simp only [hsection]
    rw [exists_block_iff
      (V := OptionalNonBlank (if isHeading style = true then some (strip text) else docxSection before))]
    · show _ ↔ (isHeading style = false → strip text ≠ [] → OptionalNonBlank (docxSection before))
      by_cases hheading : isHeading style = true
      · rw [if_pos hheading, hheading]
        refine iff_of_true (fun hne => ⟨fun cs hcs => ?_, optionalNonBlank_none⟩) nofun
        obtain rfl := Option.mem_some_iff.mp hcs
        exact strip_strip_ne_nil hne
      · rw [if_neg hheading]
        refine Iff.trans (forall_congr' fun _ => and_iff_left optionalNonBlank_none) ?_
        exact ⟨fun h _ => h, fun h => h (Bool.eq_false_iff.mpr hheading)⟩
    · intro b e hlt
      unfold ChunkLocator.Valid OptionalPositive OptionalNonBlank
      simp [hlt, docxNext]
  | table cells =>
    show _ ↔ TableAccepted none _
    rw [← exists_rows_iff]
    constructor
    · rintro ⟨new, hnew⟩
      obtain ⟨blocks, hblocks, -⟩ := Except.bind_eq_ok.mp hnew
      exact ⟨blocks, hblocks⟩
    · rintro ⟨blocks, hblocks⟩
      refine ⟨_, Except.bind_eq_ok.mpr ⟨blocks, hblocks, rfl⟩⟩

theorem docxBlocks_ne_nil_iff {blocks : List DocumentBlock} (h : docxBlocks contents = .ok blocks) :
    blocks ≠ [] ↔ ∃ content ∈ contents, content.Shown := by
  refine collect_ne_nil_iff (fun s content new hnew => ?_) h
  cases content with
  | paragraph style text =>
    obtain ⟨item, hitem, rfl⟩ := Except.map_eq_ok.mp hnew
    exact toList_ne_nil_iff hitem
  | table cells =>
    obtain ⟨rowBlocks, hrows, hnew⟩ := Except.bind_eq_ok.mp hnew
    rw [← Except.ok.inj hnew, Ne, List.map_eq_nil_iff]
    apply (rows_ne_nil_iff hrows).trans
    simp [DocxContent.Shown]

/-- **Paragraphs and tables.** -/
theorem exists_docxBlocks_iff : (∃ blocks, docxBlocks contents = .ok blocks)
    ↔ ∀ before content behind, contents = before ++ content :: behind → content.Accepted before := by
  unfold docxBlocks
  rw [exists_collect_iff]
  simp only [exists_docxOut_iff]

end Docx

/-! ### Pages -/

/-- The title that a heading gives. -/
def HtmlNode.title? : HtmlNode → Option (List Char)
  | .heading text => some text
  | _ => none

/-- The title of the last heading. -/
def htmlSection (nodes : List HtmlNode) : Option (List Char) :=
  (nodes.filterMap HtmlNode.title?).getLast?

/-- The cells of a row of the table. -/
def HtmlNode.cells? (table : ℕ) : HtmlNode → Option (List (List Char))
  | .row (some t) cells => if t = table then some cells else none
  | _ => none

/-- The rows of a table. -/
def rowsOf (table : ℕ) (nodes : List HtmlNode) : List (List (List Char)) :=
  nodes.filterMap (HtmlNode.cells? table)

/-- A node that is shown has a section whose title is not blank, and a row of a table that it is in, the
    first one of which is not blank. -/
def HtmlNode.Accepted (before : List HtmlNode) : HtmlNode → Prop
  | .heading _ => True
  | .paragraph text => strip text ≠ [] → OptionalNonBlank (htmlSection before)
  | .row none _ => False
  | .row (some table) cells => strip (joinCells cells) ≠ [] → OptionalNonBlank (htmlSection before)
    ∧ OptionalNonBlank ((rowsOf table before).head?.map joinCells)

def HtmlNode.Shown : HtmlNode → Prop
  | .heading text | .paragraph text => strip text ≠ []
  | .row _ cells => strip (joinCells cells) ≠ []

section Html

variable {before behind nodes : List HtmlNode} {node : HtmlNode}

theorem section_htmlNext (nodes : List HtmlNode) :
    (nodes.foldl htmlNext {}).section? = htmlSection nodes := by
  induction nodes using List.reverseRecOn with
  | nil => rfl
  | append_singleton nodes node ih =>
    rw [List.foldl_concat, htmlSection, List.filterMap_append]
    cases node with
    | heading text => exact List.getLast?_concat.symm
    | paragraph text => exact ih.trans (congrArg List.getLast? (List.append_nil _)).symm
    | row table cells =>
      cases table with
      | none => exact ih.trans (congrArg List.getLast? (List.append_nil _)).symm
      | some table => exact ih.trans (congrArg List.getLast? (List.append_nil _)).symm

theorem rowCounts_htmlNext (s : HtmlState) (t table : ℕ) (cells : List (List Char)) :
    (htmlNext s (.row (some t) cells)).rowCounts table
      = if table = t then s.rowCounts t + 1 else s.rowCounts table :=
  Function.update_apply _ _ _ _

theorem tableHeaders_htmlNext (s : HtmlState) (t table : ℕ) (cells : List (List Char)) :
    (htmlNext s (.row (some t) cells)).tableHeaders table
      = if table = t ∧ s.rowCounts t = 0 then some (joinCells cells) else s.tableHeaders table := by
  have heq : (htmlNext s (.row (some t) cells)).tableHeaders
      = if s.rowCounts t + 1 = 1 then Function.update s.tableHeaders t (some (joinCells cells))
        else s.tableHeaders := rfl
  rw [heq]
  by_cases hfirst : s.rowCounts t = 0
  · rw [hfirst, if_pos rfl, Function.update_apply]
    simp only [and_true]
  · rw [if_neg fun h => hfirst (Nat.succ.inj h), if_neg fun h => hfirst h.2]

theorem rowsOf_concat (table : ℕ) (nodes : List HtmlNode) (node : HtmlNode) :
    rowsOf table (nodes ++ [node]) = rowsOf table nodes ++ (node.cells? table).toList := by
  rw [rowsOf, List.filterMap_append]
  cases h : node.cells? table with
  | none => rw [List.filterMap_cons_none h]; rfl
  | some cells => rw [List.filterMap_cons_some h]; rfl

/-- The rows of a table are counted, and the first one is kept. -/
theorem table_htmlNext (table : ℕ) (nodes : List HtmlNode) :
    (nodes.foldl htmlNext {}).rowCounts table = (rowsOf table nodes).length
      ∧ (nodes.foldl htmlNext {}).tableHeaders table = (rowsOf table nodes).head?.map joinCells := by
  induction nodes using List.reverseRecOn with
  | nil => exact ⟨rfl, rfl⟩
  | append_singleton nodes node ih =>
    rw [List.foldl_concat, rowsOf_concat]
    cases node with
    | heading text => exact (List.append_nil (rowsOf table nodes)).symm ▸ ih
    | paragraph text => exact (List.append_nil (rowsOf table nodes)).symm ▸ ih
    | row t cells =>
      cases t with
      | none => exact (List.append_nil (rowsOf table nodes)).symm ▸ ih
      | some t =>
        rw [rowCounts_htmlNext, tableHeaders_htmlNext]
        by_cases ht : table = t
        · subst ht
          have hcells : (HtmlNode.row (some table) cells).cells? table = some cells := if_pos rfl
          rw [hcells, if_pos rfl, ih.1, ih.2]
          cases rowsOf table nodes with
          | nil =>
            rw [if_pos ⟨rfl, rfl⟩]
            exact ⟨rfl, rfl⟩
          | cons first rest =>
            rw [if_neg (by simp)]
            exact ⟨(@List.length_append _ (first :: rest) [cells]).symm, rfl⟩
        · have hcells : (HtmlNode.row (some t) cells).cells? table = none := if_neg (Ne.symm ht)
          rw [hcells, if_neg ht, if_neg fun h => ht h.1]
          exact (List.append_nil (rowsOf table nodes)).symm ▸ ih

/-- The number and the header of one more row. -/
theorem row_htmlNext (before : List HtmlNode) (table : ℕ) (cells : List (List Char)) :
    (htmlNext (before.foldl htmlNext {}) (.row (some table) cells)).rowCounts table
        = (rowsOf table before).length + 1
      ∧ (if 1 < (rowsOf table before).length + 1 then
          (htmlNext (before.foldl htmlNext {}) (.row (some table) cells)).tableHeaders table
        else none) = (rowsOf table before).head?.map joinCells := by
  obtain ⟨hcount, hheader⟩ := table_htmlNext table before
  rw [rowCounts_htmlNext, if_pos rfl, tableHeaders_htmlNext, hcount, hheader]
  refine ⟨rfl, ?_⟩
  cases rowsOf table before with
  | nil => rfl
  | cons first rest => rw [if_pos (by simp), if_neg (by simp)]

theorem index_htmlNext (nodes : List HtmlNode) : (nodes.foldl htmlNext {}).index = nodes.length + 1 := by
  induction nodes using List.reverseRecOn with
  | nil => rfl
  | append_singleton nodes node ih =>
    have hnext (s : HtmlState) : (htmlNext s node).index = s.index + 1 := by
      fun_cases htmlNext s node <;> rfl
    rw [List.foldl_concat, hnext, ih, List.length_append]
    rfl

theorem exists_htmlOut_iff :
    (∃ new, htmlOut (before.foldl htmlNext {}) node = .ok new) ↔ node.Accepted before := by
  have hindex := index_htmlNext before
  cases node with
  | heading text =>
    unfold htmlOut
    rw [exists_block_iff (V := OptionalNonBlank (some text))]
    · refine iff_of_true (fun hne => ⟨fun cs hcs => ?_, optionalNonBlank_none⟩) trivial
      obtain rfl := Option.mem_some_iff.mp hcs
      exact hne
    · intro b e hlt
      unfold ChunkLocator.Valid OptionalPositive OptionalNonBlank
      simp [hlt, hindex, htmlNext]
  | paragraph text =>
    unfold htmlOut
    rw [exists_block_iff (V := OptionalNonBlank (htmlSection before))]
    · exact forall_congr' fun _ => and_iff_left optionalNonBlank_none
    · intro b e hlt
      rw [← section_htmlNext]
      unfold ChunkLocator.Valid OptionalPositive OptionalNonBlank
      simp [hlt, hindex, htmlNext]
  | row t cells =>
    cases t with
    | none =>
      refine iff_of_false ?_ id
      rintro ⟨new, hnew⟩
      cases hnew
    | some table =>
      obtain ⟨hrows, hprefix⟩ := row_htmlNext before table cells
      unfold htmlOut
      simp only [hrows, hprefix]
      rw [exists_block_iff (V := OptionalNonBlank (htmlSection before))]
      · exact Iff.rfl
      · intro b e hlt
        rw [← section_htmlNext]
        unfold ChunkLocator.Valid OptionalPositive OptionalNonBlank
        simp [hlt, htmlNext]

theorem htmlBlocks_ne_nil_iff {blocks : List DocumentBlock} (h : htmlBlocks nodes = .ok blocks) :
    blocks ≠ [] ↔ ∃ node ∈ nodes, node.Shown := by
  refine collect_ne_nil_iff (fun s node new hnew => ?_) h
  cases node with
  | heading text =>
    obtain ⟨item, hitem, rfl⟩ := Except.map_eq_ok.mp hnew
    exact toList_ne_nil_iff hitem
  | paragraph text =>
    obtain ⟨item, hitem, rfl⟩ := Except.map_eq_ok.mp hnew
    exact toList_ne_nil_iff hitem
  | row t cells =>
    cases t with
    | none => cases hnew
    | some table =>
      obtain ⟨item, hitem, rfl⟩ := Except.map_eq_ok.mp hnew
      exact toList_ne_nil_iff hitem

/-- **Pages.** -/
theorem exists_htmlBlocks_iff : (∃ blocks, htmlBlocks nodes = .ok blocks)
    ↔ ∀ before node behind, nodes = before ++ node :: behind → node.Accepted before := by
  unfold htmlBlocks
  rw [exists_collect_iff]
  simp only [exists_htmlOut_iff]

end Html

/-! ### Documents -/

/-- Some element has a text that is not blank. -/
def Elements.HasText : Elements → Prop
  | .csv table => ∃ row ∈ table, ∃ cell ∈ row, strip cell ≠ []
  | .docx contents => ∃ content ∈ contents, match content with
    | .paragraph _ text => strip text ≠ []
    | .table cells => ∃ row ∈ cells, ∃ cell ∈ row, strip cell ≠ []
  | .xlsx sheets => ∃ sheet ∈ sheets, ∃ row ∈ sheet.rows, ∃ cell ∈ row, strip (cell.getD []) ≠ []
  | .html nodes => ∃ node ∈ nodes, match node with
    | .heading text | .paragraph text => strip text ≠ []
    | .row _ cells => ∃ cell ∈ cells, strip cell ≠ []

/-- Something is shown, and nothing that is shown has a blank title or header in front of it. -/
def Elements.Accepted : Elements → Prop
  | .csv table => (∃ row ∈ table, Row.Shown (row.map some)) ∧ TableAccepted none (table.map (·.map some))
  | .docx contents => (∃ content ∈ contents, content.Shown)
    ∧ ∀ before content behind, contents = before ++ content :: behind → content.Accepted before
  | .xlsx sheets => (∃ sheet ∈ sheets, ∃ row ∈ sheet.rows, row.Shown)
    ∧ ∀ sheet ∈ sheets, TableAccepted (some sheet.title) sheet.rows
  | .html nodes => (∃ node ∈ nodes, node.Shown)
    ∧ ∀ before node behind, nodes = before ++ node :: behind → node.Accepted before

theorem exists_ok_and_iff {ε α : Type} {x : Except ε α} {P : α → Prop} {Q R : Prop} (hok : (∃ a, x = .ok a) ↔ R)
    (hP : ∀ a, x = .ok a → (P a ↔ Q)) : (∃ a, x = .ok a ∧ P a) ↔ Q ∧ R := by
  constructor
  · rintro ⟨a, ha, hPa⟩
    exact ⟨(hP a ha).mp hPa, hok.mp ⟨a, ha⟩⟩
  · rintro ⟨hQ, hR⟩
    obtain ⟨a, ha⟩ := hok.mpr hR
    exact ⟨a, ha, (hP a ha).mpr hQ⟩

theorem exists_sheets_iff {sheets : List Sheet} :
    (∃ blocks, (sheets.mapM fun sheet => rows (some sheet.title) sheet.rows) = .ok blocks)
      ↔ ∀ sheet ∈ sheets, TableAccepted (some sheet.title) sheet.rows := by
  simp only [← exists_rows_iff]
  constructor
  · rintro ⟨blocks, hblocks⟩ sheet hsheet
    obtain ⟨new, hnew, -⟩ := Except.exists_mem_of_mapM hblocks hsheet
    exact ⟨new, hnew⟩
  · exact Except.exists_mapM_ok

theorem sheets_ne_nil_iff {sheets : List Sheet} {blocks : List (List DocumentBlock)}
    (h : (sheets.mapM fun sheet => rows (some sheet.title) sheet.rows) = .ok blocks) :
    blocks.flatten ≠ [] ↔ ∃ sheet ∈ sheets, ∃ row ∈ sheet.rows, row.Shown := by
  rw [Ne, List.flatten_eq_nil_iff, not_forall]
  constructor
  · rintro ⟨new, hnew⟩
    obtain ⟨hmem, hne⟩ := Classical.not_imp.mp hnew
    obtain ⟨sheet, hsheet, hrows⟩ := Except.exists_of_mem_mapM h hmem
    exact ⟨sheet, hsheet, (rows_ne_nil_iff hrows).mp hne⟩
  · rintro ⟨sheet, hsheet, hshown⟩
    obtain ⟨new, hrows, hmem⟩ := Except.exists_mem_of_mapM h hsheet
    exact ⟨new, fun hnil => (rows_ne_nil_iff hrows).mpr hshown (hnil hmem)⟩

theorem exists_blocks_iff (elements : Elements) :
    (∃ blocks, elements.blocks = .ok blocks ∧ blocks ≠ []) ↔ elements.Accepted := by
  cases elements with
  | csv table =>
    refine exists_ok_and_iff exists_rows_iff fun blocks h => ?_
    rw [rows_ne_nil_iff h]
    simp
  | docx contents => exact exists_ok_and_iff exists_docxBlocks_iff fun blocks h => docxBlocks_ne_nil_iff h
  | html nodes => exact exists_ok_and_iff exists_htmlBlocks_iff fun blocks h => htmlBlocks_ne_nil_iff h
  | xlsx sheets =>
    refine Iff.trans ?_ (exists_ok_and_iff exists_sheets_iff fun blocks h => sheets_ne_nil_iff h)
    constructor
    · rintro ⟨_, hmap, hne⟩
      obtain ⟨blocks, hblocks, rfl⟩ := Except.map_eq_ok.mp hmap
      exact ⟨blocks, hblocks, hne⟩
    · rintro ⟨blocks, hblocks, hne⟩
      exact ⟨_, Except.map_eq_ok.mpr ⟨blocks, hblocks, rfl⟩, hne⟩

section Documents

variable {readers : Readers} {others : DocumentFormat → Bytes → Py ParsedDocument} {format : DocumentFormat}
  {body : Bytes} {elements : Elements}

/-- The parser goes through what its reader has found. -/
theorem parseFormat_of_elements (h : readers.elements format body = .ok elements) :
    parseFormat (readers.parse others) format body = elements.blocks >>= fun blocks => .ok
      { format, blocks,
        parser := (elements.parser readers).1, parserVersion := (elements.parser readers).2 } := by
  have hparse : parseFormat (readers.parse others) format body
      = readers.elements format body >>= fun elements => elements.blocks >>= fun blocks => .ok
        { format, blocks,
          parser := (elements.parser readers).1, parserVersion := (elements.parser readers).2 } := by
    cases format <;> first | rfl | cases h
  rw [hparse, h, Except.ok_bind]

theorem exists_parseDocument_iff (h : readers.elements format body = .ok elements) :
    (∃ document, parseDocument (readers.parse others) format body = .ok document) ↔ elements.Accepted := by
  rw [← exists_blocks_iff]
  unfold parseDocument
  rw [parseFormat_of_elements h]
  cases hblocks : elements.blocks with
  | error e =>
    refine iff_of_false ?_ ?_
    · rintro ⟨document, hdocument⟩
      cases hdocument
    · rintro ⟨blocks, heq, -⟩
      cases heq
  | ok blocks =>
    by_cases hnil : blocks = []
    · refine iff_of_false ?_ ?_
      · rintro ⟨document, hdocument⟩
        rw [Except.ok_bind] at hdocument
        simp only [if_pos hnil] at hdocument
        cases hdocument
      · rintro ⟨_, heq, hne⟩
        exact hne (Except.ok.inj heq ▸ hnil)
    · refine iff_of_true ?_ ⟨blocks, rfl, hnil⟩
      rw [Except.ok_bind]
      simp only [if_neg hnil]
      exact ⟨_, rfl⟩

/-- **Accepted documents.**  A document with some text is accepted exactly if something is shown of it and
    no element that is shown stands behind a blank heading, in a table under a blank header, in a sheet
    with a blank title or, as a row, in no table. -/
theorem parseDocument_accepts_iff (h : readers.elements format body = .ok elements) :
    (elements.HasText → ∃ document, parseDocument (readers.parse others) format body = .ok document)
      ↔ (elements.HasText → elements.Accepted) :=
  forall_congr' fun _ => exists_parseDocument_iff h

end Documents

/-- What the readers find in `a` and in a page with an empty heading. -/
def sampleReaders : Readers where
  csv _ := .ok [["a".toList]]
  docx _ := .error (.valueError "")
  xlsx _ := .error (.valueError "")
  html _ := .ok [.heading [], .paragraph ['x']]
  version _ := "1"

theorem elements_sampleReaders_csv :
    sampleReaders.elements .csv (utf8 "a".toList) = .ok (.csv [["a".toList]]) := by
  have hdecode : decodeUtf8Sig (utf8 "a".toList) = some "a".toList := decodeUtf8_utf8 "a".toList
  simp only [Readers.elements, textOf, hdecode, Except.ok_bind]
  rfl

theorem parseDocument_accepts_iff_csv :
    (Elements.HasText (.csv [["a".toList]]) → ∃ document,
        parseDocument (sampleReaders.parse fun _ _ => .error (.valueError "")) .csv (utf8 "a".toList)
          = .ok document)
      ↔ (Elements.HasText (.csv [["a".toList]]) → Elements.Accepted (.csv [["a".toList]])) :=
  parseDocument_accepts_iff elements_sampleReaders_csv

/-- A paragraph behind an empty heading is text, and the page is refused. -/
theorem not_parseDocument_accepts : ¬ ∀ (readers : Readers)
    (others : DocumentFormat → Bytes → Py ParsedDocument) (format : DocumentFormat) (body : Bytes)
    (elements : Elements), readers.elements format body = .ok elements → elements.HasText →
      ∃ document, parseDocument (readers.parse others) format body = .ok document := by
  intro hall
  let page := "<h1></h1><p>x</p>".toList
  let nodes : List HtmlNode := [.heading [], .paragraph ['x']]
  have hdecode : decodeUtf8Sig (utf8 page) = some page := decodeUtf8_utf8 page
  have helements : sampleReaders.elements .html (utf8 page) = .ok (.html nodes) := by
    simp only [Readers.elements, textOf, hdecode, Except.ok_bind]
    rfl
  have hparagraph : HtmlNode.paragraph ['x'] ∈ nodes := List.mem_cons_of_mem _ List.mem_cons_self
  have hdocument := hall sampleReaders (fun _ _ => .error (.valueError "")) .html (utf8 page) (.html nodes)
    helements ⟨_, hparagraph, by decide⟩
  obtain ⟨-, haccepted⟩ := (exists_parseDocument_iff helements).mp hdocument
  exact haccepted [.heading []] (.paragraph ['x']) [] rfl (by decide) [] rfl rfl

end Agora.Ingestion.Chunking
