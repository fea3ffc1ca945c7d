import Agora.Ingestion.Chunking
import Agora.Lib.Collect
import Mathlib.Logic.Function.Basic

namespace Agora.Ingestion.Chunking

/-!
# Parsing of documents with structure

What third-party readers find in a file is a sequence of elements: rows of cells, paragraphs and tables, or
the nodes of a page.  The parsers go through it in order and carry the title of the section, and the header
of the table, from one element to the next.
-/

/-! ### Elements -/

/-- A row of cells.  A cell that is not `None` is given by its `str`. -/
abbrev Row := List (Option (List Char))

/-- A paragraph, with the name of its style if it has one, or a table. -/
inductive DocxContent where
  | paragraph (style : Option (List Char)) (text : List Char)
  | table (rows : List (List (List Char)))

structure Sheet where
  title : List Char
  rows : List Row

/-- `h1`, `h2` and `h3`, `p`, and `tr` with the number of the table that it is in.  The texts are those of
    `get_text(" ", strip=True)`. -/
inductive HtmlNode where
  | heading (text : List Char)
  | paragraph (text : List Char)
  | row (table : Option ℕ) (cells : List (List Char))

inductive Elements where
  | csv (rows : List (List (List Char)))
  | docx (contents : List DocxContent)
  | xlsx (sheets : List Sheet)
  | html (nodes : List HtmlNode)

/-- The third-party readers. -/
structure Readers where
  csv : List Char → Py (List (List (List Char)))
  docx : Bytes → Py (List DocxContent)
  xlsx : Bytes → Py (List Sheet)
  html : List Char → Py (List HtmlNode)
  version : String → String

/-- `_text`. -/
def textOf (body : Bytes) : Py (List Char) :=
  match decodeUtf8Sig body with
  | none => .error (.valueError "invalid utf-8")
  | some text => .ok text

/-- What the readers find. -/
def Readers.elements (readers : Readers) (format : DocumentFormat) (body : Bytes) : Py Elements :=
  match format with
  | .csv => do
    let text ← textOf body
    .csv <$> readers.csv text
  | .docx => .docx <$> readers.docx body
  | .xlsx => .xlsx <$> readers.xlsx body
  | .html => do
    let text ← textOf body
    .html <$> readers.html text
  | _ => .error (.valueError "unsupported document format")

/-! ### Rows -/

/-- `" | ".join(cells)`. -/
def joinCells (cells : List (List Char)) : List Char := [' ', '|', ' '].intercalate cells

/-- A cell that is `None` is empty. -/
def rendered (row : Row) : List Char := joinCells (row.map (·.getD []))

/-- `text.strip(" |")`. -/
def stripBars (cs : List Char) : List Char :=
  (cs.dropWhile fun c => c = ' ' || c = '|').rdropWhile fun c => c = ' ' || c = '|'

/-- What `_rows` knows at a row. -/
structure RowsState where
  header : Option (List Char) := none
  index : ℕ := 1

/-- What it knows behind the row. -/
def rowsNext (s : RowsState) (row : Row) : RowsState where
  header := if stripBars (rendered row) = [] then s.header else some (s.header.getD (rendered row))
  index := s.index + 1

/-- What it makes of the row. -/
def rowsOut (sheet : Option (List Char)) (s : RowsState) (row : Row) : Py (List DocumentBlock) :=
  if stripBars (rendered row) = [] then .ok []
  else Option.toList <$> block .tableRow (rendered row) 0
    (if 1 < s.index then (rowsNext s row).header else none) fun charStart charEnd =>
      { table := some 1, row := some s.index, sheet, charStart, charEnd }

/-- `_rows`. -/
def rows (sheet : Option (List Char)) (table : List Row) : Py (List DocumentBlock) :=
  collect rowsNext (rowsOut sheet) {} table

/-! ### Paragraphs and tables -/

structure DocxState where
  (section? : Option (List Char) := none)
  paragraphIndex : ℕ := 0
  tableIndex : ℕ := 0

/-- The style of a heading. -/
def isHeading (style : Option (List Char)) : Bool := style.any ("Heading".toList.isPrefixOf ·)

def docxNext (s : DocxState) : DocxContent → DocxState
  | .paragraph style text =>
    let title := if isHeading style then some (strip text) else s.section?
    { s with paragraphIndex := s.paragraphIndex + 1, section? := title }
  | .table _ => { s with tableIndex := s.tableIndex + 1 }

def docxOut (s : DocxState) (content : DocxContent) : Py (List DocumentBlock) :=
  let s' := docxNext s content
  match content with
  | .paragraph style text =>
    Option.toList <$> block (if isHeading style then .heading else .paragraph) text 0 none
      fun charStart charEnd =>
        { paragraph := some s'.paragraphIndex, section? := s'.section?, charStart, charEnd }
  | .table table => do
    let blocks ← rows none (table.map (·.map some))
    pure (blocks.map fun b => { b with locator := { b.locator with table := some s'.tableIndex } })

def docxBlocks (contents : List DocxContent) : Py (List DocumentBlock) :=
  collect docxNext docxOut {} contents

/-! ### Pages -/

/-- The numbers of tables stand for the identities of their nodes. -/
structure HtmlState where
  (section? : Option (List Char) := none)
  index : ℕ := 1
  rowCounts : ℕ → ℕ := fun _ => 0
  tableHeaders : ℕ → Option (List Char) := fun _ => none

def htmlNext (s : HtmlState) : HtmlNode → HtmlState
  | .heading text => { s with section? := some text, index := s.index + 1 }
  | .paragraph _ => { s with index := s.index + 1 }
  | .row none _ => { s with index := s.index + 1 }
  | .row (some table) cells => { s with
      index := s.index + 1
      rowCounts := Function.update s.rowCounts table (s.rowCounts table + 1)
      tableHeaders :=
        if s.rowCounts table + 1 = 1 then Function.update s.tableHeaders table (some (joinCells cells))
        else s.tableHeaders }

def htmlOut (s : HtmlState) (node : HtmlNode) : Py (List DocumentBlock) :=
  let s' := htmlNext s node
  match node with
  | .heading text =>
    Option.toList <$> block .heading text 0 none fun charStart charEnd =>
      { paragraph := some s.index, section? := s'.section?, charStart, charEnd }
  | .paragraph text =>
    Option.toList <$> block .paragraph text 0 none fun charStart charEnd =>
      { paragraph := some s.index, section? := s'.section?, charStart, charEnd }
  -- The number of no table is not there.
  | .row none _ => .error (.lookupError "table_numbers")
  | .row (some table) cells =>
    Option.toList <$> block .tableRow (joinCells cells) 0
      (if 1 < s'.rowCounts table then s'.tableHeaders table else none) fun charStart charEnd =>
        { table := some (table + 1), row := some (s'.rowCounts table), section? := s'.section?,
          charStart, charEnd }

def htmlBlocks (nodes : List HtmlNode) : Py (List DocumentBlock) :=
  collect htmlNext htmlOut {} nodes

/-! ### Documents -/

def Elements.blocks : Elements → Py (List DocumentBlock)
  | .csv table => rows none (table.map (·.map some))
  | .docx contents => docxBlocks contents
  | .xlsx sheets => List.flatten <$> sheets.mapM fun sheet => rows (some sheet.title) sheet.rows
  | .html nodes => htmlBlocks nodes

/-- The parser of a format, with its version. -/
def Elements.parser (readers : Readers) : Elements → String × String
  | .csv _ => ("stdlib-csv", "1")
  | .docx _ => ("python-docx", readers.version "python-docx")
  | .xlsx _ => ("openpyxl", readers.version "openpyxl")
  | .html _ => ("beautifulsoup4", readers.version "beautifulsoup4")

/-- The branches of `_parse_document` for documents with structure.  The parsers of the other formats are in
    `others`. -/
def Readers.parse (readers : Readers) (others : DocumentFormat → Bytes → Py ParsedDocument)
    (format : DocumentFormat) (body : Bytes) : Py ParsedDocument :=
  match format with
  | .csv | .docx | .xlsx | .html => do
    let elements ← readers.elements format body
    let blocks ← elements.blocks
    let (parser, parserVersion) := elements.parser readers
    pure { format, parser, parserVersion, blocks }
  | _ => others format body

end Agora.Ingestion.Chunking
