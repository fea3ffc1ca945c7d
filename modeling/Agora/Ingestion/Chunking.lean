import Agora.Ingestion.Runner
import Agora.Lib.Text

namespace Agora.Ingestion.Chunking

open Marl (Hash)

/-!
# Parsing and chunking of texts

A text document is split into paragraphs, a paragraph into words, and every chunk is a run of words of one
block, with the place in the document that it was taken from.  The validators of the values are part of the
functions that build them; a copy of a locator is not validated.  Here a document is what the parser
returns, and not what an ingestion keeps of it.
-/

/-! ### Values -/

inductive StructureKind where
  | heading
  | paragraph
  | tableRow
  | data
deriving DecidableEq, Repr

structure ChunkLocator where
  page : Option ℕ := none
  (section? : Option (List Char) := none)
  paragraph : Option ℕ := none
  table : Option ℕ := none
  row : Option ℕ := none
  sheet : Option (List Char) := none
  jsonPath : Option (List Char) := none
  charStart : ℕ
  charEnd : ℕ
deriving DecidableEq

structure DocumentBlock where
  kind : StructureKind
  text : List Char
  locator : ChunkLocator
  repeatPrefix : Option (List Char) := none
deriving DecidableEq

structure ParsedDocument where
  format : DocumentFormat
  parser : String
  parserVersion : String
  blocks : List DocumentBlock
  warnings : List String := []

structure DocumentChunk where
  ordinal : ℕ
  text : List Char
  tokenCount : ℕ
  locator : ChunkLocator
  contentHash : Hash
deriving DecidableEq

/-- The value, if its validators accept it. -/
def validated {α : Type} (valid : Prop) [Decidable valid] (a : α) : Py α :=
  if valid then .ok a else .error (.valueError "validation error")

theorem validated_of {α : Type} {valid : Prop} [Decidable valid] (h : valid) (a : α) :
    validated valid a = .ok a := if_pos h

/-- Not a blank text, if there is one. -/
def OptionalNonBlank (text : Option (List Char)) : Prop := ∀ cs ∈ text, strip cs ≠ []

instance (text : Option (List Char)) : Decidable (OptionalNonBlank text) := by
  unfold OptionalNonBlank
  infer_instance

/-- `Field(ge=1)`. -/
def OptionalPositive (n : Option ℕ) : Prop := ∀ k ∈ n, 1 ≤ k

instance (n : Option ℕ) : Decidable (OptionalPositive n) := by
  unfold OptionalPositive
  infer_instance

def ChunkLocator.Valid (l : ChunkLocator) : Prop :=
  OptionalPositive l.page ∧ OptionalPositive l.paragraph ∧ OptionalPositive l.table
    ∧ OptionalPositive l.row ∧ OptionalNonBlank l.section? ∧ OptionalNonBlank l.sheet
    ∧ OptionalNonBlank l.jsonPath ∧ l.charStart < l.charEnd

instance (l : ChunkLocator) : Decidable l.Valid := by
  unfold ChunkLocator.Valid
  infer_instance

def DocumentBlock.Valid (b : DocumentBlock) : Prop :=
  b.text ≠ [] ∧ strip b.text ≠ [] ∧ OptionalNonBlank b.repeatPrefix

instance (b : DocumentBlock) : Decidable b.Valid := by
  unfold DocumentBlock.Valid
  infer_instance

def DocumentChunk.Valid (c : DocumentChunk) : Prop := c.text ≠ [] ∧ 0 < c.tokenCount

instance (c : DocumentChunk) : Decidable c.Valid := by
  unfold DocumentChunk.Valid
  infer_instance

/-! ### Parsing -/

/-- `body.decode("utf-8-sig")`. -/
def decodeUtf8Sig (body : Bytes) : Option (List Char) :=
  decodeUtf8 (if body.take 3 = [0xEF, 0xBB, 0xBF] then body.drop 3 else body)

/-- `_block`, with the locator's other values. -/
def block (kind : StructureKind) (text : List Char) (start : ℕ) (repeatPrefix : Option (List Char))
    (place : ℕ → ℕ → ChunkLocator) : Py (Option DocumentBlock) :=
  let lineNormalized := normalizeNewlines text
  let leading := lineNormalized.length - (lstrip lineNormalized).length
  let normalized := strip lineNormalized
  if normalized = [] then .ok none
  else do
    let unchecked := place (start + leading) (start + leading + normalized.length)
    let locator ← validated unchecked.Valid unchecked
    let item : DocumentBlock := { kind, text := normalized, locator, repeatPrefix }
    some <$> validated item.Valid item

/-- The loop over the paragraphs of a text.  The kind of a paragraph and the section that it is in depend on
    its text and on the section before it. -/
def paragraphBlocks (classify : Option (List Char) → List Char → StructureKind × Option (List Char))
    (before : Option (List Char)) (index offset : ℕ) : List (List Char) → Py (List DocumentBlock)
  | [] => .ok []
  | paragraph :: paragraphs => do
    let (kind, section?) := classify before paragraph
    let item ← block kind paragraph offset none fun charStart charEnd =>
      { paragraph := some index, section?, charStart, charEnd }
    let items ← paragraphBlocks classify section? (index + 1) (offset + paragraph.length + 2) paragraphs
    pure (item.toList ++ items)

/-- `_plain`: no headings. -/
def plainKind (_ : Option (List Char)) (_ : List Char) : StructureKind × Option (List Char) :=
  (.paragraph, none)

/-- `_markdown`: a heading starts a section. -/
def markdownKind (before : Option (List Char)) (paragraph : List Char) :
    StructureKind × Option (List Char) :=
  let stripped := strip paragraph
  let title := stripped.dropWhile (· = '#')
  if stripped.head? = some '#' ∧ title.head? = some ' ' then (.heading, some (strip title))
  else (.paragraph, before)

def plain (format : DocumentFormat) (text : List Char) : Py ParsedDocument := do
  let blocks ← paragraphBlocks plainKind none 1 0 (splitParagraphs (normalizeNewlines text))
  pure { format, parser := "stdlib-text", parserVersion := "1", blocks }

def markdown (text : List Char) : Py ParsedDocument := do
  let blocks ← paragraphBlocks markdownKind none 1 0 (splitParagraphs (normalizeNewlines text))
  pure { format := .markdown, parser := "agora-markdown", parserVersion := "1", blocks }

/-- `_parse_document`.  The parsers of the other formats are in `others`. -/
def parseFormat (others : DocumentFormat → Bytes → Py ParsedDocument) (format : DocumentFormat)
    (body : Bytes) : Py ParsedDocument :=
  match format with
  | .txt | .markdown =>
    match decodeUtf8Sig body with
    | none => .error (.valueError "invalid utf-8")
    | some text => if format = .markdown then markdown text else plain format text
  | _ => others format body

/-- `parse_document`. -/
def parseDocument (others : DocumentFormat → Bytes → Py ParsedDocument) (format : DocumentFormat)
    (body : Bytes) : Except Raised ParsedDocument :=
  match parseFormat others format body with
  | .error _ => .error (.permanentPortError ("invalid " ++ format.value ++ " document") "document_parser")
  | .ok document =>
    if document.blocks = [] then
      .error (.permanentPortError (format.value ++ " document contains no extractable text") "document_parser")
    else .ok document

/-! ### Chunking -/

/-- Where a chunk ends that starts with this word. -/
def windowEnd (whole : Bool) (capacity n start : ℕ) : ℕ :=
  if whole then n else min (start + capacity) n

/-- The runs of the `n` words that become chunks.  A chunk takes up some words of the one before. -/
def windows (whole : Bool) (capacity overlap n : ℕ) (hcapacity : 0 < capacity) (start : ℕ) :
    List (ℕ × ℕ) :=
  if start < n then
    (start, windowEnd whole capacity n start) ::
      if windowEnd whole capacity n start = n then []
      else windows whole capacity overlap n hcapacity
        (windowEnd whole capacity n start - min overlap (capacity - 1))
  else []
termination_by n - start
decreasing_by
  rename_i hne
  unfold windowEnd at hne ⊢
  split_ifs at hne ⊢ <;> omega

def optionalText : Option (List Char) → Json
  | none => .null
  | some cs => .str (PyStr.ofChars cs)

def optionalInt : Option ℕ → Json
  | none => .null
  | some n => .int n

/-- `locator.model_dump(mode="json")`. -/
def ChunkLocator.modelDump (l : ChunkLocator) : Json := .obj
  [(PyStr.ofString "page", optionalInt l.page), (PyStr.ofString "section", optionalText l.section?),
    (PyStr.ofString "paragraph", optionalInt l.paragraph), (PyStr.ofString "table", optionalInt l.table),
    (PyStr.ofString "row", optionalInt l.row), (PyStr.ofString "sheet", optionalText l.sheet),
    (PyStr.ofString "json_path", optionalText l.jsonPath),
    (PyStr.ofString "char_start", .int l.charStart), (PyStr.ofString "char_end", .int l.charEnd)]

/-- `_digest`. -/
def digest (text : List Char) (locator : ChunkLocator) : Hash :=
  Marl.sha256Hash (utf8 (Json.obj
    [(PyStr.ofString "chunker_version", .text "agora-whitespace-v1"),
      (PyStr.ofString "locator", locator.modelDump),
      (PyStr.ofString "text", .str (PyStr.ofChars text))]).canonical)

/-- One chunk of a block.  The words of the window are there. -/
def chunkOf (source : DocumentBlock) (tokens : List (ℕ × ℕ)) (ordinal : ℕ) (window : ℕ × ℕ) :
    DocumentChunk :=
  let bodyStart := (tokens.getD window.1 (0, 0)).1
  let bodyEnd := (tokens.getD (window.2 - 1) (0, 0)).2
  let body := slice source.text bodyStart bodyEnd
  let text := match source.repeatPrefix with
    | none | some [] => body
    | some before => before ++ '\n' :: body
  let locator := { source.locator with
    charStart := source.locator.charStart + bodyStart
    charEnd := source.locator.charStart + bodyEnd }
  { ordinal, text, tokenCount := (finditer text).length, locator, contentHash := digest text locator }

/-- The windows of a block. -/
def windowsOf (targetTokens overlapTokens : ℕ) (source : DocumentBlock) : List (ℕ × ℕ) :=
  let prefixCount := (finditer (source.repeatPrefix.getD [])).length
  windows (source.kind = .heading ∨ source.kind = .tableRow) (max 1 (targetTokens - prefixCount))
    overlapTokens (finditer source.text).length (Nat.lt_of_lt_of_le Nat.one_pos (Nat.le_max_left _ _)) 0

/-- The chunks of one more block. -/
def chunkBlock (targetTokens overlapTokens : ℕ) (chunks : List DocumentChunk) (source : DocumentBlock) :
    Py (List DocumentChunk) :=
  (windowsOf targetTokens overlapTokens source).foldlM (fun chunks window => do
    let chunk := chunkOf source (finditer source.text) chunks.length window
    let chunk ← validated chunk.Valid chunk
    pure (chunks ++ [chunk])) chunks

/-- `chunk_document`. -/
def chunkDocument (document : ParsedDocument) (targetTokens overlapTokens : ℤ) :
    Py (List DocumentChunk) := do
  if targetTokens ≤ 0 then throw (.valueError "target_tokens must be positive")
  if overlapTokens < 0 ∨ targetTokens ≤ overlapTokens then
    throw (.valueError "overlap_tokens must be non-negative and smaller than target_tokens")
  document.blocks.foldlM (chunkBlock targetTokens.toNat overlapTokens.toNat) []

end Agora.Ingestion.Chunking
