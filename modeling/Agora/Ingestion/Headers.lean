import Agora.Ingestion.Acceptance
import Mathlib.Data.List.Enum

namespace Agora.Ingestion.Chunking

/-!
# Headers of tables

The first row of a table that is not blank is its header, and the others repeat it.  The code decides by
the number of a row whether it repeats the header, so it does this exactly if the table starts with a row
that is not blank (`headers_repeated_iff`).
-/

/-! ### What the blocks of a table should be -/

/-- What a block says of its row. -/
structure RowView where
  row : Option ℕ
  text : List Char
  repeatPrefix : Option (List Char)

def DocumentBlock.view (b : DocumentBlock) : RowView where
  row := b.locator.row
  text := b.text
  repeatPrefix := b.repeatPrefix

section Tables

variable {ρ : Type}

/-- The rows with the property, numbered. -/
def numbered (p : ρ → Prop) [DecidablePred p] (start : ℕ) (table : List ρ) : List (ρ × ℕ) :=
  (table.zipIdx start).filter fun r => p r.1

/-- The rows that are not blank: the header alone, and each other row with the header in front. -/
def headed (render : ρ → List Char) (nonBlank : ρ → Prop) [DecidablePred nonBlank]
    (table : List ρ) : List RowView :=
  match numbered nonBlank 1 table with
  | [] => []
  | (header, k) :: others =>
    { row := some k, text := strip (normalizeNewlines (render header)), repeatPrefix := none }
      :: others.map fun r =>
        { row := some r.2, text := strip (normalizeNewlines (render r.1)),
          repeatPrefix := some (render header) }

/-- The rows that are shown: all but the one with the number 1 with the header in front. -/
def emitted (render : ρ → List Char) (shown : ρ → Prop) [DecidablePred shown] (header : List Char)
    (start : ℕ) (table : List ρ) : List RowView :=
  (numbered shown start table).map fun r =>
    { row := some r.2, text := strip (normalizeNewlines (render r.1)),
      repeatPrefix := if 1 < r.2 then some header else none }

/-- The rows that are shown are those that are not blank, and one of them is the first row. -/
def HeaderFirst (shown nonBlank : ρ → Prop) (table : List ρ) : Prop :=
  (∀ row ∈ table, shown row ↔ nonBlank row)
    ∧ ((∃ row ∈ table, nonBlank row) → ∃ first, table.head? = some first ∧ nonBlank first)

theorem numbered_cons (p : ρ → Prop) [DecidablePred p] (start : ℕ) (row : ρ) (table : List ρ) :
    numbered p start (row :: table)
      = if p row then (row, start) :: numbered p (start + 1) table
        else numbered p (start + 1) table := by
  unfold numbered
  rw [List.zipIdx_cons, List.filter_cons]
  simp only [decide_eq_true_eq]

theorem start_le_of_mem_numbered {p : ρ → Prop} [DecidablePred p] {start : ℕ} {table : List ρ}
    {r : ρ × ℕ} (h : r ∈ numbered p start table) : start ≤ r.2 :=
  List.le_snd_of_mem_zipIdx (List.mem_of_mem_filter h)

/-- The numbers tell which rows have the property. -/
theorem iff_of_numbers {p q : ρ → Prop} [DecidablePred p] [DecidablePred q] {start : ℕ}
    {table : List ρ}
    (h : (numbered p start table).map Prod.snd = (numbered q start table).map Prod.snd) :
    ∀ row ∈ table, p row ↔ q row := by
  have hnot {r : ℕ} {l : List ρ} {p : ρ → Prop} [DecidablePred p] :
      r ∉ (numbered p (r + 1) l).map Prod.snd := by
    intro hr
    obtain ⟨s, hs, rfl⟩ := List.mem_map.mp hr
    exact absurd (start_le_of_mem_numbered hs) (Nat.not_succ_le_self _)
  induction table generalizing start with
  | nil => exact List.forall_mem_nil _
  | cons row table ih =>
    rw [numbered_cons, numbered_cons] at h
    rw [List.forall_mem_cons]
    split_ifs at h with hp hq hq
    · exact ⟨iff_of_true hp hq, ih (List.cons.inj h).2⟩
    · rw [List.map_cons] at h
      exact absurd (h ▸ List.mem_cons_self) hnot
    · rw [List.map_cons] at h
      exact absurd (h ▸ List.mem_cons_self) hnot
    · exact ⟨iff_of_false hp hq, ih h⟩

theorem numbered_congr {p q : ρ → Prop} [DecidablePred p] [DecidablePred q] {table : List ρ}
    (h : ∀ row ∈ table, p row ↔ q row) (start : ℕ) :
    numbered p start table = numbered q start table := by
  induction table generalizing start with
  | nil => rfl
  | cons row table ih =>
    obtain ⟨hrow, hrest⟩ := List.forall_mem_cons.mp h
    rw [numbered_cons, numbered_cons, ih hrest]
    simp only [hrow]

theorem numbered_eq_nil_iff {p : ρ → Prop} [DecidablePred p] {start : ℕ} {table : List ρ} :
    numbered p start table = [] ↔ ∀ row ∈ table, ¬ p row := by
  induction table generalizing start with
  | nil => exact iff_of_true rfl (List.forall_mem_nil _)
  | cons row table ih =>
    rw [numbered_cons, List.forall_mem_cons]
    by_cases hp : p row
    · rw [if_pos hp]
      exact iff_of_false (List.cons_ne_nil _ _) fun h => h.1 hp
    · rw [if_neg hp, ih, and_iff_right hp]

variable {render : ρ → List Char} {shown nonBlank : ρ → Prop} [DecidablePred shown]
  [DecidablePred nonBlank] {header : List Char} {table : List ρ}

theorem map_row_emitted (start : ℕ) : (emitted render shown header start table).map (·.row)
    = ((numbered shown start table).map Prod.snd).map some := by
  unfold emitted
  rw [List.map_map, List.map_map]
  rfl

theorem map_row_headed : (headed render nonBlank table).map (·.row)
    = ((numbered nonBlank 1 table).map Prod.snd).map some := by
  unfold headed
  cases numbered nonBlank 1 table with
  | nil => rfl
  | cons r others =>
    simp only [List.map_cons, List.map_map]
    rfl

/-- **Headers.**  When the rows that are shown have the header that they should have. -/
theorem emitted_eq_headed_iff
    (hheader : ∀ first, table.head? = some first → shown first → header = render first) :
    emitted render shown header 1 table = headed render nonBlank table
      ↔ HeaderFirst shown nonBlank table := by
  constructor
  · intro h
    have hrows := congrArg (List.map (·.row)) h
    rw [map_row_headed, map_row_emitted] at hrows
    have hsame := iff_of_numbers (List.map_injective_iff.mpr (Option.some_injective ℕ) hrows)
    refine ⟨hsame, ?_⟩
    rintro ⟨row, hrow, hnonBlank⟩
    unfold emitted at h
    rw [numbered_congr hsame] at h
    unfold headed at h
    cases table with
    | nil => exact absurd hrow List.not_mem_nil
    | cons first rest =>
      refine ⟨first, rfl, ?_⟩
      -- The first row that is shown would have a number above 1, and the header in front.
      by_contra hblank
      rw [numbered_cons, if_neg hblank] at h
      cases hnumbered : numbered nonBlank (1 + 1) rest with
      | nil =>
        rw [numbered_eq_nil_iff] at hnumbered
        rcases List.mem_cons.mp hrow with rfl | hrow
        · exact hblank hnonBlank
        · exact hnumbered row hrow hnonBlank
      | cons r others =>
        have hr : 1 < r.2 := start_le_of_mem_numbered (hnumbered ▸ List.mem_cons_self)
        rw [hnumbered] at h
        have hview : (if 1 < r.2 then some header else none) = none :=
          congrArg RowView.repeatPrefix (List.cons.inj h).1
        rw [if_pos hr] at hview
        cases hview
  · rintro ⟨hsame, hfirst⟩
    unfold emitted headed
    rw [numbered_congr hsame]
    cases table with
    | nil => rfl
    | cons first rest =>
      by_cases hblank : nonBlank first
      · have heq := hheader first rfl ((hsame first List.mem_cons_self).mpr hblank)
        rw [numbered_cons, if_pos hblank, List.map_cons]
        refine congrArg₂ List.cons rfl (List.map_congr_left fun r hr => ?_)
        have hlater : 1 < r.2 := start_le_of_mem_numbered hr
        rw [if_pos hlater, heq]
      · have hnone : ∀ row ∈ first :: rest, ¬ nonBlank row := by
          intro row hrow hnonBlank
          obtain ⟨_, hhead, hnonBlank⟩ := hfirst ⟨row, hrow, hnonBlank⟩
          exact hblank (Option.some.inj hhead ▸ hnonBlank)
        rw [numbered_eq_nil_iff.mpr hnone]
        rfl

end Tables

/-! ### Rows -/

/-- A row with some text. -/
def Row.HasText (row : Row) : Prop := ∃ cell ∈ row, strip (cell.getD []) ≠ []

instance (row : Row) : Decidable row.HasText := by
  unfold Row.HasText
  infer_instance

/-- The row with which a table starts is its own header. -/
theorem headerOf_cons {row : Row} (hkept : row.Kept) (table : List Row) :
    headerOf (row :: table) = some (rendered row) := by
  rw [headerOf, find?_kept hkept]
  rfl

/-- What the loop makes of the rows from here on. -/
theorem view_collect_rows {sheet : Option (List Char)} {before table : List Row}
    {blocks : List DocumentBlock}
    (h : collect rowsNext (rowsOut sheet) (before.foldl rowsNext {}) table = .ok blocks) :
    blocks.map (·.view)
      = emitted rendered Row.Shown ((headerOf (before ++ table)).getD []) (before.length + 1)
          table := by
  induction table generalizing before blocks with
  | nil =>
    obtain rfl := Except.ok.inj h
    rfl
  | cons row table ih =>
    obtain ⟨new, rest, hnew, hrest, rfl⟩ := collect_cons_eq_ok.mp h
    have hbehind := @ih (before ++ [row]) rest (by rwa [List.foldl_concat])
    rw [List.length_append, List.append_assoc] at hbehind
    rw [List.map_append, hbehind, eq_of_rowsOut hnew]
    unfold emitted
    rw [numbered_cons]
    by_cases hshown : row.Shown
    · rw [if_pos hshown, if_pos hshown, header_rowsNext, foldl_rowsNext]
      obtain ⟨header, hheader⟩ : ∃ header, headerOf (before ++ row :: table) = some header := by
        rw [headerOf, List.find?_append, find?_kept hshown.1]
        cases before.find? fun row => row.Kept <;> exact ⟨_, rfl⟩
      rw [← headerOf_append hshown.1 table, List.singleton_append, hheader]
      rfl
    · rw [if_neg hshown, if_neg hshown]
      rfl

theorem rows_headed_iff (sheet : Option (List Char)) (table : List Row) :
    (∃ blocks, rows sheet table = .ok blocks
        ∧ blocks.map (·.view) = headed rendered Row.HasText table)
      ↔ HeaderFirst Row.Shown Row.HasText table
        ∧ ((∃ row ∈ table, row.Shown) → OptionalNonBlank sheet) := by
  have hview {blocks : List DocumentBlock} (h : rows sheet table = .ok blocks) :
      blocks.map (·.view) = headed rendered Row.HasText table
        ↔ HeaderFirst Row.Shown Row.HasText table := by
    rw [@view_collect_rows sheet [] table blocks h]
    apply emitted_eq_headed_iff
    intro first hfirst hshown
    obtain ⟨rest, rfl⟩ := List.head?_eq_some_iff.mp hfirst
    rw [List.nil_append, headerOf_cons hshown.1]
    rfl
  constructor
  · rintro ⟨blocks, h, heq⟩
    exact ⟨(hview h).mp heq, fun hshown => (exists_rows_iff.mp ⟨blocks, h⟩ hshown).1⟩
  · rintro ⟨hfirst, hsheet⟩
    have haccepted : TableAccepted sheet table := by
      rintro ⟨row, hrow, hshown⟩
      refine ⟨hsheet ⟨row, hrow, hshown⟩, ?_⟩
      obtain ⟨first, hhead, htext⟩ := hfirst.2 ⟨row, hrow, (hfirst.1 row hrow).mp hshown⟩
      obtain ⟨rest, rfl⟩ := List.head?_eq_some_iff.mp hhead
      have hfirstShown := (hfirst.1 first List.mem_cons_self).mpr htext
      rw [headerOf_cons hfirstShown.1]
      intro cs hcs
      obtain rfl := Option.mem_some_iff.mp hcs
      exact hfirstShown.2
    obtain ⟨blocks, h⟩ := exists_rows_iff.mpr haccepted
    exact ⟨blocks, h, (hview h).mpr hfirst⟩

/-! ### Pages -/

/-- A row with some text. -/
def CellsHaveText (cells : List (List Char)) : Prop := ∃ cell ∈ cells, strip cell ≠ []

instance (cells : List (List Char)) : Decidable (CellsHaveText cells) := by
  unfold CellsHaveText
  infer_instance

/-- A row that is shown in a page. -/
def CellsShown (cells : List (List Char)) : Prop := strip (joinCells cells) ≠ []

instance (cells : List (List Char)) : Decidable (CellsShown cells) := by
  unfold CellsShown
  infer_instance

/-- The blocks of the rows of a table. -/
def blocksOf (table : ℕ) (blocks : List DocumentBlock) : List DocumentBlock :=
  blocks.filter fun b => b.locator.table = some (table + 1)

theorem blocksOf_append (table : ℕ) (blocks blocks' : List DocumentBlock) :
    blocksOf table (blocks ++ blocks') = blocksOf table blocks ++ blocksOf table blocks' :=
  List.filter_append _ _

theorem blocksOf_singleton {table : ℕ} {b : DocumentBlock} (h : b.locator.table = some (table + 1)) :
    blocksOf table [b] = [b] := List.filter_cons_of_pos (decide_eq_true h)

/-- The blocks that a node that is no row of the table has are not those of the table. -/
theorem blocksOf_htmlOut {table : ℕ} {s : HtmlState} {node : HtmlNode} {new : List DocumentBlock}
    (h : htmlOut s node = .ok new) (hnode : node.cells? table = none) : blocksOf table new = [] := by
  have hitem {kind : StructureKind} {text : List Char} {repeatPrefix : Option (List Char)}
      {place : ℕ → ℕ → ChunkLocator} {item : Option DocumentBlock}
      (hblock : block kind text 0 repeatPrefix place = .ok item)
      (hplace : ∀ b e, (place b e).table ≠ some (table + 1)) : blocksOf table item.toList = [] := by
    rw [eq_of_block hblock]
    split_ifs
    · rfl
    · exact List.filter_cons_of_neg fun h => hplace _ _ (of_decide_eq_true h)
  cases node with
  | heading text =>
    obtain ⟨item, hblock, rfl⟩ := Except.map_eq_ok.mp h
    exact hitem hblock nofun
  | paragraph text =>
    obtain ⟨item, hblock, rfl⟩ := Except.map_eq_ok.mp h
    exact hitem hblock nofun
  | row t cells =>
    cases t with
    | none => cases h
    | some t =>
      obtain ⟨item, hblock, rfl⟩ := Except.map_eq_ok.mp h
      refine hitem hblock fun b e heq => ?_
      have ht : t = table := Nat.succ.inj (Option.some.inj heq)
      rw [HtmlNode.cells?, if_pos ht] at hnode
      cases hnode

/-- What a row of the table becomes. -/
theorem view_htmlOut_row {table : ℕ} {before : List HtmlNode} {cells : List (List Char)}
    {new : List DocumentBlock}
    (h : htmlOut (before.foldl htmlNext {}) (.row (some table) cells) = .ok new) :
    (blocksOf table new).map (·.view) = if CellsShown cells then
      [{ row := some ((rowsOf table before).length + 1),
         text := strip (normalizeNewlines (joinCells cells)),
         repeatPrefix := (rowsOf table before).head?.map joinCells }] else [] := by
  obtain ⟨hrows, hprefix⟩ := row_htmlNext before table cells
  obtain ⟨item, hblock, rfl⟩ := Except.map_eq_ok.mp h
  simp only [hrows, hprefix] at hblock
  rw [eq_of_block hblock]
  by_cases hshown : CellsShown cells
  · have hne : ¬ strip (joinCells cells) = [] := hshown
    rw [if_neg hne, if_pos hshown, Option.toList_some, blocksOf_singleton rfl]
    rfl
  · have hblank : strip (joinCells cells) = [] := not_not.mp hshown
    rw [if_pos hblank, if_neg hshown]
    rfl

/-- What the loop makes of the rows of a table from here on. -/
theorem view_collect_html {table : ℕ} {before nodes : List HtmlNode} {blocks : List DocumentBlock}
    (h : collect htmlNext htmlOut (before.foldl htmlNext {}) nodes = .ok blocks) :
    (blocksOf table blocks).map (·.view)
      = emitted joinCells CellsShown (((rowsOf table (before ++ nodes)).head?.map joinCells).getD [])
          ((rowsOf table before).length + 1) (rowsOf table nodes) := by
  induction nodes generalizing before blocks with
  | nil =>
    obtain rfl := Except.ok.inj h
    rfl
  | cons node nodes ih =>
    obtain ⟨new, rest, hnew, hrest, rfl⟩ := collect_cons_eq_ok.mp h
    have hbehind := @ih (before ++ [node]) rest (by rwa [List.foldl_concat])
    rw [rowsOf_concat, List.append_assoc] at hbehind
    rw [blocksOf_append, List.map_append, hbehind]
    cases hcells : node.cells? table with
    | none =>
      have hrows : rowsOf table (node :: nodes) = rowsOf table nodes := List.filterMap_cons_none hcells
      rw [blocksOf_htmlOut hnew hcells, hrows, Option.toList_none, List.append_nil]
      rfl
    | some cells =>
      have hnode : node = .row (some table) cells := by
        cases node with
        | heading text => cases hcells
        | paragraph text => cases hcells
        | row t cells' =>
          cases t with
          | none => cases hcells
          | some t =>
            rw [HtmlNode.cells?, Option.ite_none_right_eq_some] at hcells
            rw [hcells.1, Option.some.inj hcells.2]
      have hrows : rowsOf table (node :: nodes) = cells :: rowsOf table nodes :=
        List.filterMap_cons_some hcells
      subst hnode
      rw [view_htmlOut_row hnew, hrows, Option.toList_some, List.length_append, List.singleton_append]
      unfold emitted
      rw [numbered_cons]
      by_cases hshown : CellsShown cells
      · rw [if_pos hshown, if_pos hshown, List.map_cons, List.singleton_append]
        refine congrArg₂ List.cons ?_ rfl
        have hall : rowsOf table (before ++ .row (some table) cells :: nodes)
            = rowsOf table before ++ cells :: rowsOf table nodes := by
          rw [rowsOf, List.filterMap_append]
          exact congrArg _ hrows
        rw [hall]
        cases rowsOf table before with
        | nil => rfl
        | cons first rest =>
          have hlater : 1 < (first :: rest).length + 1 := Nat.succ_lt_succ (Nat.zero_lt_succ _)
          simp only [if_pos hlater]
          rfl
      · rw [if_neg hshown, if_neg hshown]
        rfl

theorem html_headed_iff (nodes : List HtmlNode) :
    (∃ blocks, htmlBlocks nodes = .ok blocks ∧ ∀ table, (blocksOf table blocks).map (·.view)
        = headed joinCells CellsHaveText (rowsOf table nodes))
      ↔ (∀ before node behind, nodes = before ++ node :: behind → node.Accepted before)
        ∧ ∀ table, HeaderFirst CellsShown CellsHaveText (rowsOf table nodes) := by
  have hview {blocks : List DocumentBlock} (h : htmlBlocks nodes = .ok blocks) (table : ℕ) :
      (blocksOf table blocks).map (·.view) = headed joinCells CellsHaveText (rowsOf table nodes)
        ↔ HeaderFirst CellsShown CellsHaveText (rowsOf table nodes) := by
    rw [@view_collect_html table [] nodes blocks h]
    apply emitted_eq_headed_iff
    intro first hfirst _
    rw [List.nil_append, hfirst]
    rfl
  rw [← exists_htmlBlocks_iff]
  constructor
  · rintro ⟨blocks, h, heq⟩
    exact ⟨⟨blocks, h⟩, fun table => (hview h table).mp (heq table)⟩
  · rintro ⟨⟨blocks, h⟩, hfirst⟩
    exact ⟨blocks, h, fun table => (hview h table).mpr (hfirst table)⟩

/-! ### Both branches -/

/-- **Table headers.**  The blocks of a table have its header exactly if the rows that the code shows are
    those with text, and the first row of the table is one of them, where it has any.  A sheet with such
    rows has a title, and the rows of a page are those of a page that is accepted. -/
theorem headers_repeated_iff (sheet : Option (List Char)) (table : List Row)
    (nodes : List HtmlNode) :
    ((∃ blocks, rows sheet table = .ok blocks
          ∧ blocks.map (·.view) = headed rendered Row.HasText table)
        ↔ HeaderFirst Row.Shown Row.HasText table
          ∧ ((∃ row ∈ table, row.Shown) → OptionalNonBlank sheet))
      ∧ ((∃ blocks, htmlBlocks nodes = .ok blocks ∧ ∀ number, (blocksOf number blocks).map (·.view)
            = headed joinCells CellsHaveText (rowsOf number nodes))
          ↔ (∀ before node behind, nodes = before ++ node :: behind → node.Accepted before)
            ∧ ∀ number, HeaderFirst CellsShown CellsHaveText (rowsOf number nodes)) :=
  ⟨rows_headed_iff sheet table, html_headed_iff nodes⟩

/-- An empty row in front of the header: the header has itself in front. -/
theorem not_headers_repeated : ¬ ∀ (sheet : Option (List Char)) (table : List Row), ∃ blocks,
    rows sheet table = .ok blocks ∧ blocks.map (·.view) = headed rendered Row.HasText table := by
  intro hall
  obtain ⟨⟨-, hfirst⟩, -⟩ := (rows_headed_iff none [[], [some ['a']], [some ['1']]]).mp (hall _ _)
  obtain ⟨first, hhead, htext⟩ := hfirst ⟨[some ['a']], by decide, by decide⟩
  obtain rfl := Option.some.inj hhead
  exact absurd htext (by decide)

end Agora.Ingestion.Chunking
