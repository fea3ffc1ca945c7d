import Agora.Ingestion.Documents
import Agora.Ingestion.Finality

namespace Agora.Ingestion

open Stateful
open Agora.Except (Raises)

/-!
# Documents that cannot be read

`parse_document` translates the exceptions that it names, and a run takes what it does not for a
failure of this attempt.  Three exceptions get through: `csv.Error`, the `RecursionError` of a
nested JSON value, and the `UnicodeEncodeError` of a path that is not a text, which only the chunker
raises.  `Escapes` says of which documents; all others fail for good (`unreadable_failed_iff`).
-/

namespace Chunking

/-! ### What a run sees -/

/-- What parsing and chunking raise: an error of the port, or an exception as it is. -/
inductive DocumentError where
  | port (e : Raised)
  | escaped (e : PyException)

/-- `KeyError`, `UnicodeError` and `ValueError`, and the exceptions of the packages. -/
def DocumentReaders.translates (r : DocumentReaders) (e : PyException) : Bool :=
  e.cls == .valueError || e.cls == .lookupError || r.isPackageError e

/-- `parse_document`. -/
def DocumentReaders.parseDocument (r : DocumentReaders) (format : DocumentFormat) (body : Bytes) :
    Except DocumentError LocatedDocument :=
  match r.parse format body with
  | .error e =>
    if r.translates e then
      .error (.port (.permanentPortError ("invalid " ++ format.value ++ " document")
        "document_parser"))
    else .error (.escaped e)
  | .ok document =>
    if document.blocks = [] then
      .error (.port (.permanentPortError (format.value ++ " document contains no extractable text")
        "document_parser"))
    else .ok document

/-- Parsing and chunking, in one `try` of the run. -/
def DocumentReaders.read (r : DocumentReaders) (format : DocumentFormat) (body : Bytes) :
    Except DocumentError (LocatedDocument × List DocumentChunk) := do
  let document ← r.parseDocument format body
  match document.chunks 800 150 with
  | .error e => .error (.escaped e)
  | .ok chunks => .ok (document, chunks)

def StructureKind.value : StructureKind → String
  | heading => "HEADING"
  | paragraph => "PARAGRAPH"
  | tableRow => "TABLE_ROW"
  | data => "DATA"

/-- `block.model_dump(mode="json")`. -/
def DocumentBlock.modelDump (b : DocumentBlock) : Json := .obj
  [(PyStr.ofString "kind", .text b.kind.value),
    (PyStr.ofString "text", .str (PyStr.ofChars b.text)),
    (PyStr.ofString "locator", b.locator.modelDump),
    (PyStr.ofString "repeat_prefix", optionalText b.repeatPrefix)]

/-- A document, as the run keeps it.  The paths of its blocks are texts. -/
def LocatedDocument.kept (document : LocatedDocument) : Ingestion.ParsedDocument where
  format := document.format
  parser := document.parser
  parserVersion := document.parserVersion
  blocks := (document.blocks.filterMap LocatedBlock.resolved).map fun b =>
    { text := String.ofList b.text, page := b.locator.page,
      dump := String.ofList b.modelDump.canonical }
  warnings := document.warnings

def DocumentChunk.kept (chunk : DocumentChunk) : Ingestion.DocumentChunk where
  ordinal := chunk.ordinal
  text := String.ofList chunk.text
  tokenCount := chunk.tokenCount
  locatorText := String.ofList chunk.locator.modelDump.canonical
  contentHash := chunk.contentHash
  chunkerVersion := "agora-whitespace-v1"

/-- What a run makes of parsing and chunking. -/
def DocumentReaders.outcome (r : DocumentReaders) (format : DocumentFormat) (body : Bytes) :
    ParseOutcome :=
  match r.read format body with
  | .ok (document, chunks) => .parsed document.kept (chunks.map DocumentChunk.kept)
  | .error (.port (.permanentPortError _ _)) => .permanentPortError
  | .error _ => .otherError

/-! ### Which documents get through -/

/-- What is documented of the readers: `csv.reader` raises `csv.Error`, `json.loads` raises
    `ValueError` or `RecursionError`, and the exceptions of the packages are none of these. -/
structure DocumentReaders.Documented (r : DocumentReaders) : Prop where
  csv_error : ∀ text, ∀ e ∈ (r.csv text).2, e.cls = .other ∧ r.isPackageError e = false
  loads_error : ∀ text, Raises Json.IsLoadError (r.loads text)
  package_error : ∀ e, r.isPackageError e = true → e.cls = .other

/-- The walk goes on behind the node. -/
def Node.Passed (stack : Stack) (node : Node) : Prop := ¬ node.Exhausts stack ∧ node.Readable

/-- The walk runs out of stack before it meets a scalar that is not Unicode. -/
def Value.ExhaustsStack (stack : Stack) (v : Value) : Prop :=
  ∃ before node behind, nodes v 0 DocumentReaders.rootPath = before ++ node :: behind
    ∧ (∀ b ∈ before, b.Passed stack) ∧ node.Exhausts stack

/-- The walk comes to its end, and the path of some scalar is not a text. -/
def Value.LosesPath (stack : Stack) (v : Value) : Prop :=
  (∀ node ∈ nodes v 0 DocumentReaders.rootPath, node.Passed stack)
    ∧ ∃ node ∈ nodes v 0 DocumentReaders.rootPath,
      node.scalar?.isSome = true ∧ Json.isScalar node.path = false

/-- The document raises what no one translates. -/
def DocumentReaders.Escapes (r : DocumentReaders) (format : DocumentFormat) (body : Bytes) : Prop :=
  ∃ text, decodeUtf8Sig body = some text ∧
    match format with
    | .csv => (r.csv text).2 ≠ none ∧ TableAccepted none ((r.csv text).1.map (·.map some))
    | .json => (∃ e, r.loads text = .error e ∧ e.cls = .recursionError)
      ∨ ∃ v, r.loads text = .ok v ∧ (v.ExhaustsStack r.stack ∨ v.LosesPath r.stack)
    | _ => False

/-! ### What is raised -/

theorem raises_block (kind : StructureKind) (text : List Char) (start : ℕ)
    (repeatPrefix : Option (List Char)) (place : ℕ → ℕ → ChunkLocator) :
    Raises IsValueError (block kind text start repeatPrefix place) := by
  rw [block_eq]
  split_ifs
  · exact .ok _
  · exact .ok _
  · exact .error rfl

theorem raises_rows (sheet : Option (List Char)) (table : List Row) :
    Raises IsValueError (rows sheet table) := by
  apply raises_collect
  intro s row
  exact .ite (fun _ => .ok _) fun _ => (raises_block _ _ _ _ _).map _

theorem raises_paragraphBlocks
    (classify : Option (List Char) → List Char → StructureKind × Option (List Char))
    (before : Option (List Char)) (index offset : ℕ) (paragraphs : List (List Char)) :
    Raises IsValueError (paragraphBlocks classify before index offset paragraphs) := by
  induction paragraphs generalizing before index offset with
  | nil => exact .ok []
  | cons p paragraphs ih =>
    exact (raises_block _ _ _ _ _).bind fun item _ => (ih _ _ _).bind fun items _ => .ok _

theorem raises_textOf (body : Bytes) : Raises IsValueError (textOf body) := by
  unfold textOf
  split
  · exact .error rfl
  · exact .ok _

section Translates

variable {r : DocumentReaders} {e : PyException}

theorem translates_of_isValueError (h : IsValueError e) : r.translates e = true := by
  unfold DocumentReaders.translates
  rw [show e.cls = .valueError from h]
  rfl

theorem translates_of_recursionError (hr : r.Documented) (h : e.cls = .recursionError) :
    r.translates e = false := by
  have hpackage : r.isPackageError e = false := by
    by_contra hpackage
    have hother := hr.package_error e (by simpa using hpackage)
    rw [h] at hother
    cases hother
  unfold DocumentReaders.translates
  rw [h, hpackage]
  rfl

theorem translates_of_csvError (hr : r.Documented) {text : List Char}
    (h : (r.csv text).2 = some e) : r.translates e = false := by
  obtain ⟨hother, hpackage⟩ := hr.csv_error text e h
  unfold DocumentReaders.translates
  rw [hother, hpackage]
  rfl

/-- The computation raises what is not translated. -/
def DocumentReaders.LetsThrough {α : Type} (r : DocumentReaders) (x : Py α) : Prop :=
  ∃ e, x = .error e ∧ r.translates e = false

theorem not_letsThrough_of_raises {α : Type} {x : Py α} (h : Raises IsValueError x) :
    ¬ r.LetsThrough x := by
  rintro ⟨e, he, htranslates⟩
  rw [translates_of_isValueError (h e he)] at htranslates
  cases htranslates

theorem letsThrough_map_iff {α β : Type} {x : Py α} {f : α → β} :
    r.LetsThrough (f <$> x) ↔ r.LetsThrough x := by
  cases x with
  | ok a =>
    apply iff_of_false
    · exact not_letsThrough_of_raises (.ok _)
    · exact not_letsThrough_of_raises (.ok a)
  | error e =>
    refine exists_congr fun e' => and_congr_left fun _ => ?_
    simp [Functor.map, Except.map]

theorem letsThrough_bind_iff {α β : Type} {x : Py α} {f : α → Py β} :
    r.LetsThrough (x >>= f) ↔ r.LetsThrough x ∨ ∃ a, x = .ok a ∧ r.LetsThrough (f a) := by
  unfold DocumentReaders.LetsThrough
  simp only [Except.bind_eq_error]
  constructor
  · rintro ⟨e, he | ⟨a, ha, he⟩, htranslates⟩
    · exact .inl ⟨e, he, htranslates⟩
    · exact .inr ⟨a, ha, e, he, htranslates⟩
  · rintro (⟨e, he, htranslates⟩ | ⟨a, ha, e, he, htranslates⟩)
    · exact ⟨e, .inl he, htranslates⟩
    · exact ⟨e, .inr ⟨a, ha, he⟩, htranslates⟩

end Translates

/-! ### The walk -/

section Walk

variable {stack : Stack} {node : Node}

theorem exists_nodeBlocks_iff (h : node.path.any isVisible = true) :
    (∃ new, node.blocks stack = .ok new) ↔ node.Passed stack := by
  unfold Node.Passed
  rcases node.blocks_cases stack h with
    ⟨hexhausts, herror⟩ | ⟨hexhausts, hreadable, herror⟩ | ⟨hexhausts, hreadable, new, hnew, -⟩
  · rw [herror]
    exact iff_of_false nofun fun h => h.1 hexhausts
  · rw [herror]
    exact iff_of_false nofun fun h => hreadable h.2
  · exact iff_of_true ⟨new, hnew⟩ ⟨hexhausts, hreadable⟩

/-- Only the stack gets through. -/
theorem nodeBlocks_letsThrough_iff {r : DocumentReaders} (hr : r.Documented)
    (h : node.path.any isVisible = true) :
    r.LetsThrough (node.blocks stack) ↔ node.Exhausts stack := by
  rcases node.blocks_cases stack h with
    ⟨hexhausts, herror⟩ | ⟨hexhausts, -, herror⟩ | ⟨hexhausts, -, new, hnew, -⟩
  · exact iff_of_true ⟨_, herror, translates_of_recursionError hr rfl⟩ hexhausts
  · rw [herror]
    exact iff_of_false (not_letsThrough_of_raises (.error rfl)) hexhausts
  · rw [hnew]
    exact iff_of_false (not_letsThrough_of_raises (.ok new)) hexhausts

theorem visible_of_mem_rootNodes {v : Value} :
    ∀ node ∈ nodes v 0 DocumentReaders.rootPath, node.path.any isVisible = true :=
  visible_of_mem_nodes v rfl

/-- The walk raises what its first bad node raises. -/
theorem walk_letsThrough_iff {r : DocumentReaders} (hr : r.Documented) {v : Value} :
    r.LetsThrough (jsonBlocks stack.scalarFrames stack.frames v DocumentReaders.rootPath)
      ↔ v.ExhaustsStack stack := by
  rw [walk_eq]
  unfold DocumentReaders.LetsThrough Value.ExhaustsStack
  simp only [gather_eq_error_iff]
  have hvisible := visible_of_mem_rootNodes (v := v)
  constructor
  · rintro ⟨e, ⟨before, node, behind, heq, hbefore, he⟩, htranslates⟩
    rw [heq, List.forall_mem_append, List.forall_mem_cons] at hvisible
    have hexhausts := (nodeBlocks_letsThrough_iff hr hvisible.2.1).mp ⟨e, he, htranslates⟩
    refine ⟨before, node, behind, heq, fun b hb => ?_, hexhausts⟩
    exact (exists_nodeBlocks_iff (hvisible.1 b hb)).mp (hbefore b hb)
  · rintro ⟨before, node, behind, heq, hbefore, hexhausts⟩
    rw [heq, List.forall_mem_append, List.forall_mem_cons] at hvisible
    obtain ⟨e, he, htranslates⟩ := (nodeBlocks_letsThrough_iff hr hvisible.2.1).mpr hexhausts
    refine ⟨e, ⟨before, node, behind, heq, fun b hb => ?_, he⟩, htranslates⟩
    exact (exists_nodeBlocks_iff (hvisible.1 b hb)).mpr (hbefore b hb)

theorem resolved_eq_none_iff {b : LocatedBlock} :
    b.resolved = none ↔ ∃ path, b.jsonPath = some path ∧ Json.isScalar path = false := by
  unfold LocatedBlock.resolved Json.isScalar
  cases b.jsonPath with
  | none => simp
  | some path => simp

/-- The walk gives a block whose path is not a text. -/
theorem walk_losesPath_iff {v : Value} :
    (∃ blocks, jsonBlocks stack.scalarFrames stack.frames v DocumentReaders.rootPath = .ok blocks
      ∧ ∃ b ∈ blocks, b.resolved = none) ↔ v.LosesPath stack := by
  rw [walk_eq]
  have hvisible := visible_of_mem_rootNodes (v := v)
  have hpassed : (∃ blocks,
      gather (Node.blocks stack) (nodes v 0 DocumentReaders.rootPath) = .ok blocks)
      ↔ ∀ node ∈ nodes v 0 DocumentReaders.rootPath, node.Passed stack := by
    rw [exists_gather_iff]
    exact forall₂_congr fun node hnode => exists_nodeBlocks_iff (hvisible node hnode)
  have hlost {blocks : List LocatedBlock}
      (h : gather (Node.blocks stack) (nodes v 0 DocumentReaders.rootPath) = .ok blocks) :
      (∃ b ∈ blocks, b.resolved = none) ↔ ∃ node ∈ nodes v 0 DocumentReaders.rootPath,
        node.scalar?.isSome = true ∧ Json.isScalar node.path = false := by
    have hpaths := jsonPaths_of_gather hvisible h
    simp only [resolved_eq_none_iff]
    constructor
    · rintro ⟨b, hb, path, hpath, hlone⟩
      have hmem : some path ∈ blocks.map (·.jsonPath) := hpath ▸ List.mem_map_of_mem hb
      rw [hpaths] at hmem
      obtain ⟨node, hnode, heq⟩ := List.mem_map.mp hmem
      obtain rfl := Option.some.inj heq
      obtain ⟨hnode, hscalar⟩ := List.mem_filter.mp hnode
      exact ⟨node, hnode, hscalar, hlone⟩
    · rintro ⟨node, hnode, hscalar, hlone⟩
      have hmem : some node.path ∈ blocks.map (·.jsonPath) := by
        rw [hpaths]
        exact List.mem_map.mpr ⟨node, List.mem_filter.mpr ⟨hnode, hscalar⟩, rfl⟩
      obtain ⟨b, hb, hpath⟩ := List.mem_map.mp hmem
      exact ⟨b, hb, node.path, hpath, hlone⟩
  unfold Value.LosesPath
  constructor
  · rintro ⟨blocks, h, hb⟩
    exact ⟨hpassed.mp ⟨blocks, h⟩, (hlost h).mp hb⟩
  · rintro ⟨hall, hnode⟩
    obtain ⟨blocks, h⟩ := hpassed.mpr hall
    exact ⟨blocks, h, (hlost h).mpr hnode⟩

end Walk

/-! ### What gets through -/

section Escapes

variable {r : DocumentReaders} {format : DocumentFormat} {body : Bytes}

/-- Parsing lets something through, or the chunker meets a path that is not a text. -/
theorem read_escaped_iff :
    (∃ e, r.read format body = .error (.escaped e))
      ↔ r.LetsThrough (r.parse format body)
        ∨ ∃ document, r.parse format body = .ok document
          ∧ ∃ b ∈ document.blocks, b.resolved = none := by
  unfold DocumentReaders.read DocumentReaders.parseDocument DocumentReaders.LetsThrough
  cases hparse : r.parse format body with
  | error e =>
    by_cases htranslates : r.translates e = true
    · simp [htranslates]
    · simp [htranslates]
  | ok document =>
    have hchunks := @exists_chunks_iff document (valid_of_parse hparse) 800 150 (by decide)
      (by decide) (by decide)
    by_cases hempty : document.blocks = []
    · simp [hempty]
    · simp only [if_neg hempty, Except.ok_bind]
      cases hall : document.chunks 800 150 with
      | error e =>
        have hlost : ¬ ∀ b ∈ document.blocks, b.resolved.isSome = true := by
          rw [← hchunks, hall]
          nofun
        simpa using hlost
      | ok chunks =>
        have hresolved := hchunks.mp ⟨chunks, hall⟩
        refine iff_of_false nofun ?_
        rintro (⟨e, he, -⟩ | ⟨other, hother, b, hb, hnone⟩)
        · cases he
        · cases hother
          have hsome := hresolved b hb
          rw [hnone] at hsome
          cases hsome

/-- What the port raises is permanent. -/
theorem permanent_of_read {e : Raised} (h : r.read format body = .error (.port e)) :
    ∃ message, e = .permanentPortError message "document_parser" := by
  rcases Except.bind_eq_error.mp h with h | ⟨document, -, h⟩
  · unfold DocumentReaders.parseDocument at h
    split at h
    · split_ifs at h
      · cases h
        exact ⟨_, rfl⟩
      · cases h
    · split_ifs at h
      cases h
      exact ⟨_, rfl⟩
  · split at h
    · cases h
    · cases h

/-- The blocks of the document have no paths. -/
theorem escaped_iff_of_located {x : Py ParsedDocument}
    (hparse : r.parse format body = ParsedDocument.located <$> x) :
    (∃ e, r.read format body = .error (.escaped e)) ↔ r.LetsThrough x := by
  rw [read_escaped_iff, hparse, letsThrough_map_iff]
  apply or_iff_left
  rintro ⟨document, hdocument, b, hb, hnone⟩
  obtain ⟨parsed, -, rfl⟩ := Except.map_eq_ok.mp hdocument
  obtain ⟨source, -, rfl⟩ := List.mem_map.mp hb
  cases hnone

theorem raises_parseFormat {others : DocumentFormat → Bytes → Py ParsedDocument}
    (hformat : format = .txt ∨ format = .markdown) :
    Raises IsValueError (parseFormat others format body) := by
  have hdecoded (text : List Char) : Raises IsValueError
      (if format = .markdown then markdown text else plain format text) :=
    .ite (fun _ => (raises_paragraphBlocks _ _ _ _ _).bind fun _ _ => .ok _)
      fun _ => (raises_paragraphBlocks _ _ _ _ _).bind fun _ _ => .ok _
  rcases hformat with rfl | rfl
  · rw [parseFormat]
    cases decodeUtf8Sig body with
    | none => exact .error rfl
    | some text => exact hdecoded text
  · rw [parseFormat]
    cases decodeUtf8Sig body with
    | none => exact .error rfl
    | some text => exact hdecoded text

/-- A text lets nothing through. -/
theorem text_escaped_iff (hformat : format = .txt ∨ format = .markdown) :
    (∃ e, r.read format body = .error (.escaped e)) ↔ r.Escapes format body := by
  have hnone : ¬ r.Escapes format body := by
    rintro ⟨text, -, hfalse⟩
    rcases hformat with rfl | rfl <;> exact hfalse
  refine iff_of_false ?_ hnone
  have hparse : r.parse format body = ParsedDocument.located <$> parseFormat (fun format _ =>
      .error (.valueError ("unsupported document format: " ++ format.value))) format body := by
    rcases hformat with rfl | rfl <;> rfl
  rw [escaped_iff_of_located hparse]
  exact not_letsThrough_of_raises (raises_parseFormat hformat)

/-- The text of a document is read first. -/
theorem textOf_letsThrough_iff {α : Type} {f : List Char → Py α} :
    r.LetsThrough (textOf body >>= f)
      ↔ ∃ text, decodeUtf8Sig body = some text ∧ r.LetsThrough (f text) := by
  rw [letsThrough_bind_iff, or_iff_right (not_letsThrough_of_raises (raises_textOf body))]
  simp only [textOf_eq_ok]

theorem csv_escaped_iff (hr : r.Documented) :
    (∃ e, r.read .csv body = .error (.escaped e)) ↔ r.Escapes .csv body := by
  rw [escaped_iff_of_located (x := textOf body >>= fun text => r.csvBlocks text >>= fun blocks =>
    pure { format := .csv, parser := "stdlib-csv", parserVersion := "1", blocks })]
  · rw [textOf_letsThrough_iff]
    refine exists_congr fun text => and_congr_right fun _ => ?_
    have hpure (blocks : List DocumentBlock) : ¬ r.LetsThrough (pure
        { format := .csv, parser := "stdlib-csv", parserVersion := "1", blocks } :
          Py ParsedDocument) :=
      not_letsThrough_of_raises (.ok _)
    rw [letsThrough_bind_iff, or_iff_left (fun ⟨blocks, _, h⟩ => hpure blocks h)]
    unfold DocumentReaders.csvBlocks
    rw [letsThrough_bind_iff, or_iff_right (not_letsThrough_of_raises (raises_rows _ _)),
      ← exists_rows_iff]
    cases hcsv : (r.csv text).2 with
    | none =>
      refine iff_of_false ?_ fun h => h.1 rfl
      rintro ⟨blocks, -, hthrough⟩
      exact not_letsThrough_of_raises (.ok blocks) hthrough
    | some e =>
      have hthrough : r.LetsThrough (.error e : Py (List DocumentBlock)) :=
        ⟨e, rfl, translates_of_csvError hr hcsv⟩
      simp only [hthrough, and_true, ne_eq, reduceCtorEq, not_false_eq_true, true_and]
  · unfold DocumentReaders.parse
    simp only [map_bind]
    rfl

theorem json_escaped_iff (hr : r.Documented) :
    (∃ e, r.read .json body = .error (.escaped e)) ↔ r.Escapes .json body := by
  have hparse : r.parse .json body = textOf body >>= fun text => r.loads text >>= fun v =>
      jsonBlocks r.stack.scalarFrames r.stack.frames v DocumentReaders.rootPath >>= fun blocks =>
        pure { format := .json, parser := "stdlib-json", parserVersion := "1", blocks } := rfl
  have hloads (text : List Char) :
      r.LetsThrough (r.loads text) ↔ ∃ e, r.loads text = .error e ∧ e.cls = .recursionError := by
    refine exists_congr fun e => and_congr_right fun he => ?_
    rcases hr.loads_error text e he with hvalue | hrecursion
    · rw [translates_of_isValueError hvalue, show e.cls = .valueError from hvalue]
      simp
    · rw [translates_of_recursionError hr hrecursion, hrecursion]
      simp
  have hthrough (text : List Char) : r.LetsThrough (r.loads text >>= fun v =>
      jsonBlocks r.stack.scalarFrames r.stack.frames v DocumentReaders.rootPath >>= fun blocks =>
        pure (⟨.json, "stdlib-json", "1", blocks, []⟩ : LocatedDocument))
      ↔ (∃ e, r.loads text = .error e ∧ e.cls = .recursionError)
        ∨ ∃ v, r.loads text = .ok v ∧ v.ExhaustsStack r.stack := by
    rw [letsThrough_bind_iff, hloads]
    refine or_congr_right (exists_congr fun v => and_congr_right fun _ => ?_)
    rw [letsThrough_bind_iff, walk_letsThrough_iff hr, or_iff_left]
    rintro ⟨blocks, -, h⟩
    exact not_letsThrough_of_raises (.ok _) h
  have hlost : (∃ document, r.parse .json body = .ok document
        ∧ ∃ b ∈ document.blocks, b.resolved = none)
      ↔ ∃ text, decodeUtf8Sig body = some text
        ∧ ∃ v, r.loads text = .ok v ∧ v.LosesPath r.stack := by
    rw [hparse]
    constructor
    · rintro ⟨document, hdocument, hb⟩
      obtain ⟨text, htext, hdocument⟩ := Except.bind_eq_ok.mp hdocument
      obtain ⟨v, hv, hdocument⟩ := Except.bind_eq_ok.mp hdocument
      obtain ⟨blocks, hblocks, hdocument⟩ := Except.bind_eq_ok.mp hdocument
      cases hdocument
      exact ⟨text, textOf_eq_ok.mp htext, v, hv, walk_losesPath_iff.mp ⟨blocks, hblocks, hb⟩⟩
    · rintro ⟨text, htext, v, hv, hlost⟩
      obtain ⟨blocks, hblocks, hb⟩ := walk_losesPath_iff.mpr hlost
      refine ⟨_, Except.bind_eq_ok.mpr ⟨text, textOf_eq_ok.mpr htext, Except.bind_eq_ok.mpr ⟨v, hv,
        Except.bind_eq_ok.mpr ⟨blocks, hblocks, rfl⟩⟩⟩, hb⟩
  rw [read_escaped_iff, hlost, hparse, textOf_letsThrough_iff, ← exists_or]
  refine exists_congr fun text => ?_
  rw [← and_or_left, hthrough, or_assoc, ← exists_or]
  simp only [← and_or_left]

/-- **Exceptions.**  What gets through parsing and chunking. -/
theorem escaped_iff (hr : r.Documented) (hformat : format ∈ [.txt, .markdown, .csv, .json]) :
    (∃ e, r.read format body = .error (.escaped e)) ↔ r.Escapes format body := by
  simp only [List.mem_cons, List.not_mem_nil, or_false] at hformat
  rcases hformat with rfl | rfl | rfl | rfl
  · exact text_escaped_iff (.inl rfl)
  · exact text_escaped_iff (.inr rfl)
  · exact csv_escaped_iff hr
  · exact json_escaped_iff hr

end Escapes

end Chunking

open Chunking (DocumentReaders DocumentError Value Stack decodeUtf8Sig)

/-! ### What a run makes of it -/

/-- The failure of a document that cannot be parsed. -/
def unparseable (c : IngestSourceInput) : Phase :=
  Phase.permanent .parse .parseFailed "source document could not be parsed" (some c.objectReference)
    "source document parsing failed"

/-- The run fails for good, and so says the row of its operation if the store takes the failure. -/
def FailedForGood (c : IngestSourceInput) (outside : Outside) (body : Bytes) : Prop :=
  Phase.afterAcquired c outside body = unparseable c
    ∧ ∀ now s t row, s.operation? c.operationId = some row → row.parseState ≠ .succeeded →
      ∀ call, (Phase.afterAcquired c outside body).call c = some call →
        perform call now s = (.ok .done, t) → permanentFailure c t = some (.parse, .parseFailed)

theorem failedForGood_iff {c : IngestSourceInput} {outside : Outside} {body : Bytes} :
    FailedForGood c outside body ↔ Phase.afterAcquired c outside body = unparseable c := by
  refine and_iff_left_of_imp fun hphase now s t row hrow hparse call hcall hperform => ?_
  rw [hphase] at hcall
  obtain rfl := Option.some.inj hcall
  obtain ⟨⟨⟩, hfail, -⟩ := wrapped_eq_ok.mp hperform
  rw [permanentFailure_fail hrow hparse hfail]
  rfl

/-- The failure of an attempt that has raised what no one translates. -/
def unexpected (c : IngestSourceInput) : Phase :=
  Phase.transient .parse "source document parser failed unexpectedly" (some c.objectReference)

section Run

variable {r : DocumentReaders} {c : IngestSourceInput} {format : DocumentFormat} {body : Bytes}

/-- The error of the port is a failure for good, and what gets through is one of the attempt. -/
theorem afterAcquired_of_error (hmedia : mediaFormat c.mediaType = some format)
    (object : ObjectOutcome) {e : DocumentError} (h : r.read format body = .error e) :
    Phase.afterAcquired c ⟨object, r.outcome⟩ body = match e with
      | .port _ => unparseable c
      | .escaped _ => unexpected c := by
  unfold Phase.afterAcquired
  rw [hmedia]
  simp only [DocumentReaders.outcome, h]
  cases e with
  | port e =>
    obtain ⟨message, rfl⟩ := Chunking.permanent_of_read h
    rfl
  | escaped e => rfl

theorem not_failedForGood_of_escaped (hmedia : mediaFormat c.mediaType = some format)
    (object : ObjectOutcome) {e : PyException} (h : r.read format body = .error (.escaped e)) :
    ¬ FailedForGood c ⟨object, r.outcome⟩ body := by
  rw [failedForGood_iff, afterAcquired_of_error hmedia object h]
  nofun

/-- **Failures.**  A document of one of these formats that cannot be read fails for good, unless it
    raises what no one translates. -/
theorem unreadable_failed_iff (hr : r.Documented) (hmedia : mediaFormat c.mediaType = some format)
    (hformat : format ∈ [.txt, .markdown, .csv, .json]) (object : ObjectOutcome) (body : Bytes) :
    ((∀ document, r.read format body ≠ .ok document) → FailedForGood c ⟨object, r.outcome⟩ body)
      ↔ ¬ r.Escapes format body := by
  rw [← Chunking.escaped_iff hr hformat]
  cases hread : r.read format body with
  | ok document =>
    refine iff_of_true (fun h => absurd rfl (h document)) ?_
    rintro ⟨e, he⟩
    cases he
  | error e =>
    cases e with
    | port e =>
      have hphase := afterAcquired_of_error hmedia object hread
      refine iff_of_true (fun _ => failedForGood_iff.mpr hphase) ?_
      rintro ⟨e, he⟩
      cases he
    | escaped e =>
      refine iff_of_false (fun h => ?_) (not_not.mpr ⟨e, rfl⟩)
      exact not_failedForGood_of_escaped hmedia object hread (h nofun)

end Run

/-! ### A value that is nested too deeply -/

/-- The readers of an interpreter whose `json.loads` opens so many brackets at most, without any
    packages. -/
def plainReaders (limit : ℕ) : DocumentReaders where
  csv _ := ([], none)
  loads text := Value.ofJson <$> Json.loads limit text
  stack := { frames := 970, scalarFrames := 10 }
  pdf _ := .ok []
  docx _ := .ok []
  xlsx _ := .ok []
  html _ := .ok []
  version _ := "1"
  isPackageError _ := false

theorem documented_plainReaders (limit : ℕ) : (plainReaders limit).Documented where
  csv_error _ := nofun
  loads_error text := (Json.raises_loads limit text).map _
  package_error _ := nofun

/-- A hundred thousand brackets. -/
def bracketsInput : IngestSourceInput := { sampleInput with
  mediaType := "application/json"
  sizeBytes := 100000
  declaredContentHash :=
    ⟨"sha256:13f86ea1e7edd116d18d4ba6c6fa114cd3c927516182d24259623874955d21d1", by decide⟩
  objectKey := "sources/13f86ea1e7edd116d18d4ba6c6fa114cd3c927516182d24259623874955d21d1"
  notBlank := by decide
  contentAddressed := by decide }

def brackets : Bytes := utf8 (List.replicate 100000 '[')

theorem decodeUtf8Sig_brackets (n : ℕ) :
    decodeUtf8Sig (utf8 (List.replicate (n + 1) '[')) = some (List.replicate (n + 1) '[') := by
  unfold decodeUtf8Sig
  rw [if_neg]
  · exact decodeUtf8_utf8 _
  · rw [List.replicate_succ]
    intro h
    exact absurd (List.cons.inj h).1 (by decide)

theorem escapes_brackets : (plainReaders 99999).Escapes .json brackets := by
  refine ⟨_, decodeUtf8Sig_brackets 99999, .inl ⟨Json.recursionLimitError, ?_, rfl⟩⟩
  show Value.ofJson <$> Json.loads 99999 _ = _
  rw [Json.loads_brackets]
  rfl

theorem unreadable_failed_brackets :
    ((∀ document, (plainReaders 99999).read .json brackets ≠ .ok document) →
        FailedForGood bracketsInput ⟨.body brackets, (plainReaders 99999).outcome⟩ brackets)
      ↔ ¬ (plainReaders 99999).Escapes .json brackets :=
  unreadable_failed_iff (documented_plainReaders 99999) (by decide) (by decide) (.body brackets)
    brackets

/-- The document is never read, and every attempt is one that may be made again. -/
theorem brackets_failed_unexpectedly :
    ¬ ((∀ document, (plainReaders 99999).read .json brackets ≠ .ok document) →
        FailedForGood bracketsInput ⟨.body brackets, (plainReaders 99999).outcome⟩ brackets)
      ∧ Phase.afterAcquired bracketsInput ⟨.body brackets, (plainReaders 99999).outcome⟩ brackets
        = unexpected bracketsInput := by
  obtain ⟨e, he⟩ := (Chunking.escaped_iff (documented_plainReaders 99999) (by decide)).mpr
    escapes_brackets
  have hmedia : mediaFormat bracketsInput.mediaType = some .json := by decide
  refine ⟨fun h => ?_, afterAcquired_of_error hmedia (.body brackets) he⟩
  apply not_failedForGood_of_escaped hmedia (.body brackets) he
  apply h
  rw [he]
  nofun

end Agora.Ingestion
