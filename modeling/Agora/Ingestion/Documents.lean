import Agora.Ingestion.Acceptance
import Agora.Ingestion.Windows
import Agora.Lib.JsonErrors

namespace Agora.Ingestion.Chunking

/-!
# Documents of every format

A JSON document is walked in the order of its keys, and every scalar becomes a block with the path
that leads to it.  Keys are any strings, with lone surrogates too, so such a path need not be a
text: blocks are located by it (`LocatedBlock`), and only the chunker, which encodes it, minds.

`jsonBlocks` is the walk of the source.  It is a loop over the nodes of the value, from the root on
(`jsonBlocks_eq`), so what it raises is what its first bad node raises.
-/

/-! ### Values -/

/-- A code point that `str.strip` leaves. -/
def isVisible : CodePoint → Bool
  | .scalar c => !isSpace c
  | .surrogate _ => true

/-- A scalar, given by what `json.dumps` writes of it: `null`, a number or a quoted string. -/
structure Scalar where
  rendered : PyStr
  visible : rendered.any isVisible = true

/-- A value of `json.loads`. -/
inductive Value where
  | scalar (s : Scalar)
  | list (items : List Value)
  | dict (entries : List (PyStr × Value))

/-- `ord`. -/
def ordOf : CodePoint → ℕ
  | .scalar c => c.toNat
  | .surrogate n => 0xD800 + n.val

/-- `sorted(value)`, with what stands under each key. -/
def sortKeys {α : Type} (entries : List (PyStr × α)) : List (PyStr × α) :=
  entries.mergeSort fun a b => decide (a.1.map ordOf ≤ b.1.map ordOf)

theorem sortKeys_perm {α : Type} (entries : List (PyStr × α)) :
    (sortKeys entries).Perm entries :=
  List.mergeSort_perm _ _

theorem sortKeys_map {α β : Type} (f : α → β) (entries : List (PyStr × α)) :
    sortKeys (entries.map fun e => (e.1, f e.2)) = (sortKeys entries).map fun e => (e.1, f e.2) :=
  (List.map_mergeSort (f := fun e : PyStr × α => (e.1, f e.2)) fun _ _ _ _ => rfl).symm

/-- `f"{path}.{key}"`. -/
def keyPath (path key : PyStr) : PyStr := path ++ .scalar '.' :: key

/-- `f"{path}[{index}]"`. -/
def itemPath (path : PyStr) (index : ℕ) : PyStr :=
  path ++ .scalar '[' :: (PyStr.ofChars (Nat.toDigits 10 index) ++ [.scalar ']'])

/-! ### Values of JSON texts -/

/-- A scalar that is written so. -/
def Scalar.ofText (rendered : PyStr) : Scalar :=
  if h : rendered.any isVisible = true then ⟨rendered, h⟩ else ⟨PyStr.ofString "null", rfl⟩

/-- A string as `json.dumps` writes it with `ensure_ascii=False`: a surrogate stands for itself. -/
def quoted (s : PyStr) : PyStr :=
  .scalar '"' :: (s.flatMap fun
    | .scalar c => PyStr.ofChars (Json.escapeChar c)
    | .surrogate n => [.surrogate n]) ++ [.scalar '"']

mutual
/-- The value that is read of a text.  A float keeps the digits that it was read with. -/
def Value.ofJson : Json → Value
  | .null => .scalar (.ofText (PyStr.ofString "null"))
  | .bool true => .scalar (.ofText (PyStr.ofString "true"))
  | .bool false => .scalar (.ofText (PyStr.ofString "false"))
  | .int n => .scalar (.ofText (PyStr.ofChars (Json.intText n)))
  | .float m e => .scalar (.ofText (PyStr.ofChars (Json.intText m ++ 'e' :: Json.intText e)))
  | .str s => .scalar (.ofText (quoted s))
  | .arr items => .list (ofJsonItems items)
  | .obj entries => .dict (ofJsonEntries entries)
def Value.ofJsonItems : List Json → List Value
  | [] => []
  | j :: items => ofJson j :: ofJsonItems items
def Value.ofJsonEntries : List (PyStr × Json) → List (PyStr × Value)
  | [] => []
  | (key, j) :: entries => (key, ofJson j) :: ofJsonEntries entries
end

/-! ### The walk -/

/-- A block, with its `json_path` apart. -/
structure LocatedBlock where
  block : DocumentBlock
  jsonPath : Option PyStr := none

/-- `_block` of a scalar.  `DocumentBlock.text` must be Unicode, and `json_path` need not be. -/
def scalarBlock (rendered path : PyStr) : Py (List LocatedBlock) :=
  match PyStr.chars? rendered with
  | none => .error (.valueError "validation error")
  | some text => do
    let _ ← validated (path.any isVisible = true) ()
    let item ← block .data text 0 none fun charStart charEnd => { charStart, charEnd }
    .ok (item.toList.map fun b => { block := b, jsonPath := some path })

/-- The stack that is left for the walk, in frames; the block of a scalar takes up some more. -/
structure Stack where
  frames : ℕ
  scalarFrames : ℕ

mutual
/-- `_json_blocks`, with so many frames left. -/
def jsonBlocks (scalarFrames : ℕ) : ℕ → Value → PyStr → Py (List LocatedBlock)
  | 0, _, _ => .error Json.recursionLimitError
  | frames + 1, .scalar s, path =>
    if frames < scalarFrames then .error Json.recursionLimitError else scalarBlock s.rendered path
  | frames + 1, .list items, path => itemBlocks scalarFrames frames items path 0
  | frames + 1, .dict entries, path =>
    gather Prod.snd (sortKeys (entryBlocks scalarFrames frames entries path))
def itemBlocks (scalarFrames : ℕ) : ℕ → List Value → PyStr → ℕ → Py (List LocatedBlock)
  | _, [], _, _ => .ok []
  | frames, v :: items, path, index => do
    let new ← jsonBlocks scalarFrames frames v (itemPath path index)
    let rest ← itemBlocks scalarFrames frames items path (index + 1)
    pure (new ++ rest)
def entryBlocks (scalarFrames : ℕ) :
    ℕ → List (PyStr × Value) → PyStr → List (PyStr × Py (List LocatedBlock))
  | _, [], _ => []
  | frames, (key, v) :: entries, path =>
    (key, jsonBlocks scalarFrames frames v (keyPath path key))
      :: entryBlocks scalarFrames frames entries path
end

/-! ### Nodes -/

/-- A place in a value: how deep it is, its path, and the scalar there if it is one. -/
structure Node where
  depth : ℕ
  path : PyStr
  scalar? : Option Scalar

mutual
/-- The nodes of a value, each before those below it, in the order of the keys. -/
def nodes : Value → ℕ → PyStr → List Node
  | .scalar s, depth, path => [⟨depth, path, some s⟩]
  | .list items, depth, path => ⟨depth, path, none⟩ :: itemNodes items (depth + 1) path 0
  | .dict entries, depth, path =>
    ⟨depth, path, none⟩ :: (sortKeys (entryNodes entries (depth + 1) path)).flatMap Prod.snd
def itemNodes : List Value → ℕ → PyStr → ℕ → List Node
  | [], _, _, _ => []
  | v :: items, depth, path, index =>
    nodes v depth (itemPath path index) ++ itemNodes items depth path (index + 1)
def entryNodes : List (PyStr × Value) → ℕ → PyStr → List (PyStr × List Node)
  | [], _, _ => []
  | (key, v) :: entries, depth, path =>
    (key, nodes v depth (keyPath path key)) :: entryNodes entries depth path
end

/-- The stack does not reach to the node. -/
def Node.Exhausts (stack : Stack) (node : Node) : Prop :=
  stack.frames ≤ node.depth + if node.scalar?.isSome then stack.scalarFrames else 0

instance (stack : Stack) (node : Node) : Decidable (node.Exhausts stack) := by
  unfold Node.Exhausts
  infer_instance

/-- What the walk makes of a node. -/
def Node.blocks (stack : Stack) (node : Node) : Py (List LocatedBlock) :=
  if node.Exhausts stack then .error Json.recursionLimitError
  else
    match node.scalar? with
    | none => .ok []
    | some s => scalarBlock s.rendered node.path

theorem Node.blocks_scalar (stack : Stack) (depth : ℕ) (path : PyStr) (s : Scalar) {frames : ℕ}
    (h : stack.frames = depth + (frames + 1)) :
    Node.blocks stack ⟨depth, path, some s⟩
      = if frames < stack.scalarFrames then .error Json.recursionLimitError
        else scalarBlock s.rendered path := by
  unfold Node.blocks Node.Exhausts
  simp only [Option.isSome_some, if_true, h]
  by_cases hframes : frames < stack.scalarFrames
  · rw [if_pos hframes, if_pos (by omega)]
  · rw [if_neg hframes, if_neg (by omega)]

theorem Node.blocks_inner (stack : Stack) (depth : ℕ) (path : PyStr) {frames : ℕ}
    (h : stack.frames = depth + (frames + 1)) :
    Node.blocks stack ⟨depth, path, none⟩ = .ok [] := by
  unfold Node.blocks Node.Exhausts
  simp only [Option.isSome_none, Bool.false_eq_true, if_false, h]
  rw [if_neg (by omega)]

theorem Node.blocks_exhausts {stack : Stack} {node : Node} (h : stack.frames ≤ node.depth) :
    node.blocks stack = .error Json.recursionLimitError :=
  if_pos (h.trans (Nat.le_add_right _ _))

/-- What does nothing comes first. -/
theorem gather_cons_of_ok {stack : Stack} {node : Node} (h : node.blocks stack = .ok [])
    (rest : List Node) :
    gather (Node.blocks stack) (node :: rest) = gather (Node.blocks stack) rest := by
  rw [gather, h, Except.ok_bind]
  cases gather (Node.blocks stack) rest <;> rfl

mutual
/-- The walk goes through the nodes. -/
theorem jsonBlocks_eq (stack : Stack) : ∀ (v : Value) {depth frames : ℕ} (path : PyStr),
    stack.frames = depth + frames →
    jsonBlocks stack.scalarFrames frames v path = gather (Node.blocks stack) (nodes v depth path)
  | .scalar s, depth, 0, path, h => by
    rw [jsonBlocks, nodes, gather_singleton, Node.blocks_exhausts h.le]
  | .scalar s, depth, frames + 1, path, h => by
    rw [jsonBlocks, nodes, gather_singleton, Node.blocks_scalar stack depth path s h]
  | .list items, depth, 0, path, h => by
    rw [jsonBlocks, nodes, gather, Node.blocks_exhausts h.le]
    rfl
  | .list items, depth, frames + 1, path, h => by
    rw [jsonBlocks, nodes, gather_cons_of_ok (Node.blocks_inner stack depth path h)]
    exact itemBlocks_eq stack items path 0 (by omega)
  | .dict entries, depth, 0, path, h => by
    rw [jsonBlocks, nodes, gather, Node.blocks_exhausts h.le]
    rfl
  | .dict entries, depth, frames + 1, path, h => by
    rw [jsonBlocks, nodes, gather_cons_of_ok (Node.blocks_inner stack depth path h),
      entryBlocks_eq stack entries path (show stack.frames = depth + 1 + frames by omega),
      sortKeys_map, gather_map, gather_flatMap]
theorem itemBlocks_eq (stack : Stack) : ∀ (items : List Value) {depth frames : ℕ} (path : PyStr)
    (index : ℕ), stack.frames = depth + frames →
    itemBlocks stack.scalarFrames frames items path index
      = gather (Node.blocks stack) (itemNodes items depth path index)
  | [], _, _, _, _, _ => by rw [itemBlocks, itemNodes, gather]
  | v :: items, depth, frames, path, index, h => by
    rw [itemBlocks, itemNodes, gather_append, jsonBlocks_eq stack v _ h,
      itemBlocks_eq stack items path (index + 1) h]
theorem entryBlocks_eq (stack : Stack) : ∀ (entries : List (PyStr × Value)) {depth frames : ℕ}
    (path : PyStr), stack.frames = depth + frames →
    entryBlocks stack.scalarFrames frames entries path
      = (entryNodes entries depth path).map fun e => (e.1, gather (Node.blocks stack) e.2)
  | [], _, _, _, _ => by rw [entryBlocks, entryNodes, List.map_nil]
  | (key, v) :: entries, depth, frames, path, h => by
    rw [entryBlocks, entryNodes, List.map_cons, jsonBlocks_eq stack v _ h,
      entryBlocks_eq stack entries path h]
end

/-! ### Scalars -/

/-- What is written of a scalar is not blank. -/
theorem Scalar.strip_ne_nil (s : Scalar) {text : List Char}
    (h : PyStr.chars? s.rendered = some text) : strip text ≠ [] := by
  have hvisible := s.visible
  rw [PyStr.eq_ofChars_of_chars? h, List.any_eq_true] at hvisible
  obtain ⟨p, hp, hvisible⟩ := hvisible
  obtain ⟨c, hc, rfl⟩ := List.mem_map.mp hp
  exact Agora.strip_ne_nil hc (by simpa [isVisible] using hvisible)

/-- A scalar that is Unicode has one block, and no other has one. -/
theorem scalarBlock_eq (s : Scalar) {path : PyStr} (hpath : path.any isVisible = true) :
    (Json.isScalar s.rendered = true ∧ ∃ b, scalarBlock s.rendered path = .ok [⟨b, some path⟩])
      ∨ (Json.isScalar s.rendered = false
        ∧ scalarBlock s.rendered path = .error (.valueError "validation error")) := by
  unfold Json.isScalar scalarBlock
  cases hchars : PyStr.chars? s.rendered with
  | none => exact .inr ⟨rfl, rfl⟩
  | some text =>
    left
    refine ⟨rfl, ?_⟩
    have hblank := s.strip_ne_nil hchars
    have hplace : ∀ b e : ℕ, b < e → (ChunkLocator.Valid { charStart := b, charEnd := e } ↔ True) :=
      fun b e hlt => iff_true_intro ⟨nofun, nofun, nofun, nofun, nofun, nofun, nofun, hlt⟩
    have hblock : ∃ new, Option.toList <$> block .data text 0 none (fun charStart charEnd =>
        { charStart, charEnd }) = .ok new :=
      (exists_block_iff hplace).mpr fun _ => ⟨trivial, nofun⟩
    obtain ⟨new, hnew⟩ := hblock
    obtain ⟨item, hitem, rfl⟩ := Except.map_eq_ok.mp hnew
    have hsome := eq_of_block hitem
    rw [if_neg hblank] at hsome
    subst hsome
    exact ⟨_, by simp only [validated_of hpath, hitem, Except.ok_bind]; rfl⟩

theorem any_isVisible_append {path : PyStr} (h : path.any isVisible = true) (more : PyStr) :
    (path ++ more).any isVisible = true := by
  rw [List.any_append, h, Bool.true_or]

mutual
/-- A path goes on from the path of the value. -/
theorem visible_of_mem_nodes : ∀ (v : Value) {depth : ℕ} {path : PyStr},
    path.any isVisible = true → ∀ node ∈ nodes v depth path, node.path.any isVisible = true
  | .scalar s, depth, path, h => by
    rw [nodes]
    exact List.forall_mem_singleton.mpr h
  | .list items, depth, path, h => by
    rw [nodes]
    exact List.forall_mem_cons.mpr ⟨h, visible_of_mem_itemNodes items h⟩
  | .dict entries, depth, path, h => by
    rw [nodes, List.forall_mem_cons]
    refine ⟨h, fun node hnode => ?_⟩
    obtain ⟨e, he, hnode⟩ := List.mem_flatMap.mp hnode
    exact visible_of_mem_entryNodes entries h e ((sortKeys_perm _).mem_iff.mp he) node hnode
theorem visible_of_mem_itemNodes : ∀ (items : List Value) {depth index : ℕ} {path : PyStr},
    path.any isVisible = true →
    ∀ node ∈ itemNodes items depth path index, node.path.any isVisible = true
  | [], _, _, _, _ => by
    rw [itemNodes]
    exact List.forall_mem_nil _
  | v :: items, depth, index, path, h => by
    rw [itemNodes, List.forall_mem_append]
    exact ⟨visible_of_mem_nodes v (any_isVisible_append h _), visible_of_mem_itemNodes items h⟩
theorem visible_of_mem_entryNodes : ∀ (entries : List (PyStr × Value)) {depth : ℕ} {path : PyStr},
    path.any isVisible = true →
    ∀ e ∈ entryNodes entries depth path, ∀ node ∈ e.2, node.path.any isVisible = true
  | [], _, _, _ => by
    rw [entryNodes]
    exact List.forall_mem_nil _
  | (key, v) :: entries, depth, path, h => by
    rw [entryNodes]
    exact List.forall_mem_cons.mpr
      ⟨visible_of_mem_nodes v (any_isVisible_append h _), visible_of_mem_entryNodes entries h⟩
end

/-- The scalar at a node, if it is one, is Unicode. -/
def Node.Readable (node : Node) : Prop := ∀ s ∈ node.scalar?, Json.isScalar s.rendered = true

/-- What a node gives: an exception for want of stack, or of Unicode, or the block of a scalar. -/
theorem Node.blocks_cases (stack : Stack) {node : Node} (h : node.path.any isVisible = true) :
    (node.Exhausts stack ∧ node.blocks stack = .error Json.recursionLimitError)
      ∨ (¬ node.Exhausts stack ∧ ¬ node.Readable
        ∧ node.blocks stack = .error (.valueError "validation error"))
      ∨ (¬ node.Exhausts stack ∧ node.Readable
        ∧ ∃ new, node.blocks stack = .ok new
          ∧ new.map (·.jsonPath) = if node.scalar?.isSome then [some node.path] else []) := by
  by_cases hexhausts : node.Exhausts stack
  · exact .inl ⟨hexhausts, if_pos hexhausts⟩
  have hblocks : node.blocks stack = match node.scalar? with
      | none => .ok []
      | some s => scalarBlock s.rendered node.path := if_neg hexhausts
  obtain ⟨depth, path, scalar?⟩ := node
  cases scalar? with
  | none => exact .inr (.inr ⟨hexhausts, nofun, [], hblocks, rfl⟩)
  | some s =>
    have hreadable : Node.Readable ⟨depth, path, some s⟩ ↔ Json.isScalar s.rendered = true := by
      unfold Node.Readable
      simp
    rcases scalarBlock_eq s h with ⟨hscalar, b, hb⟩ | ⟨hscalar, herror⟩
    · exact .inr (.inr ⟨hexhausts, hreadable.mpr hscalar, _, hblocks.trans hb, rfl⟩)
    · refine .inr (.inl ⟨hexhausts, ?_, hblocks.trans herror⟩)
      rw [hreadable, hscalar]
      decide

/-- The blocks of a value are those of its scalars. -/
theorem jsonPaths_of_gather {stack : Stack} {l : List Node} {blocks : List LocatedBlock}
    (hvisible : ∀ node ∈ l, node.path.any isVisible = true)
    (h : gather (Node.blocks stack) l = .ok blocks) :
    blocks.map (·.jsonPath) = (l.filter (·.scalar?.isSome)).map fun node => some node.path := by
  induction l generalizing blocks with
  | nil =>
    cases h
    rfl
  | cons node l ih =>
    obtain ⟨hnode, hrest⟩ := List.forall_mem_cons.mp hvisible
    obtain ⟨new, hnew, h⟩ := Except.bind_eq_ok.mp h
    obtain ⟨rest, hmore, h⟩ := Except.bind_eq_ok.mp h
    cases h
    rw [List.map_append, ih hrest hmore]
    rcases node.blocks_cases stack hnode with
      ⟨-, herror⟩ | ⟨-, -, herror⟩ | ⟨-, -, new', hnew', hpaths⟩
    · rw [herror] at hnew
      cases hnew
    · rw [herror] at hnew
      cases hnew
    · rw [hnew'] at hnew
      cases hnew
      rw [hpaths]
      by_cases hscalar : node.scalar?.isSome = true
      · simp [hscalar]
      · simp [hscalar]

/-! ### Documents -/

/-- `ParsedDocument`, with located blocks. -/
structure LocatedDocument where
  format : DocumentFormat
  parser : String
  parserVersion : String
  blocks : List LocatedBlock
  warnings : List String := []

def ParsedDocument.located (document : ParsedDocument) : LocatedDocument where
  format := document.format
  parser := document.parser
  parserVersion := document.parserVersion
  blocks := document.blocks.map fun b => { block := b }
  warnings := document.warnings

/-- What is read of a document.  `csv.reader` gives rows, and `csv.Error` behind them if it raises;
    the stack is what `json.loads` leaves for the walk.  The exceptions of the packages that
    `parse_document` names, and `OSError`, are told apart by a predicate. -/
structure DocumentReaders where
  csv : List Char → List (List (List Char)) × Option PyException
  loads : List Char → Py Value
  stack : Stack
  pdf : Bytes → Py (List (List Char))
  docx : Bytes → Py (List DocxContent)
  xlsx : Bytes → Py (List Sheet)
  html : List Char → Py (List HtmlNode)
  version : String → String
  isPackageError : PyException → Bool

namespace DocumentReaders

variable (r : DocumentReaders)

/-- The rows are blocks before the reader raises. -/
def csvBlocks (text : List Char) : Py (List DocumentBlock) := do
  let blocks ← rows none ((r.csv text).1.map (·.map some))
  match (r.csv text).2 with
  | none => pure blocks
  | some e => .error e

/-- The readers of the documents with structure. -/
def structured : Readers where
  csv text := match r.csv text with
    | (table, none) => .ok table
    | (_, some e) => .error e
  docx := r.docx
  xlsx := r.xlsx
  html := r.html
  version := r.version

/-- The pages of a document, from 1 on. -/
def pageBlocks (pages : List (List Char)) : Py (List DocumentBlock) :=
  collect (fun index _ => index + 1) (fun index text =>
    Option.toList <$> block .paragraph text 0 none fun charStart charEnd =>
      { page := some index, charStart, charEnd }) 1 pages

/-- The path of the whole value. -/
def rootPath : PyStr := [.scalar '$']

/-- `_parse_document`. -/
def parse (format : DocumentFormat) (body : Bytes) : Py LocatedDocument :=
  match format with
  | .csv => do
    let text ← textOf body
    let blocks ← r.csvBlocks text
    let parsed : ParsedDocument := { format, parser := "stdlib-csv", parserVersion := "1", blocks }
    pure parsed.located
  | .json => do
    let text ← textOf body
    let value ← r.loads text
    let blocks ← jsonBlocks r.stack.scalarFrames r.stack.frames value rootPath
    pure { format, parser := "stdlib-json", parserVersion := "1", blocks }
  | .pdf => do
    let pages ← r.pdf body
    let blocks ← pageBlocks pages
    let parsed : ParsedDocument :=
      { format, parser := "pypdf", parserVersion := r.version "pypdf", blocks }
    pure parsed.located
  | _ => ParsedDocument.located <$> r.structured.parse
      (parseFormat fun format _ =>
        .error (.valueError ("unsupported document format: " ++ format.value))) format body

end DocumentReaders

theorem textOf_eq_ok {body : Bytes} {text : List Char} :
    textOf body = .ok text ↔ decodeUtf8Sig body = some text := by
  unfold textOf
  cases decodeUtf8Sig body <;> simp

theorem walk_eq (stack : Stack) (v : Value) :
    jsonBlocks stack.scalarFrames stack.frames v DocumentReaders.rootPath
      = gather (Node.blocks stack) (nodes v 0 DocumentReaders.rootPath) :=
  jsonBlocks_eq stack v _ (Nat.zero_add _).symm

/-- Where the blocks of a document come from: paragraphs, pages, elements or the nodes of a value. -/
inductive DocumentReaders.Parses (r : DocumentReaders) (body : Bytes) :
    DocumentFormat → LocatedDocument → Prop
  | text {format : DocumentFormat} {document : ParsedDocument}
      {classify : Option (List Char) → List Char → StructureKind × Option (List Char)}
      {paragraphs : List (List Char)}
      (hblocks : paragraphBlocks classify none 1 0 paragraphs = .ok document.blocks) :
      Parses r body format document.located
  | pages {format : DocumentFormat} {document : ParsedDocument} {pages : List (List Char)}
      (hblocks : DocumentReaders.pageBlocks pages = .ok document.blocks) :
      Parses r body format document.located
  | elements {format : DocumentFormat} {document : ParsedDocument} {elements : Elements}
      (helements : r.structured.elements format body = .ok elements)
      (hblocks : elements.blocks = .ok document.blocks) : Parses r body format document.located
  | json {document : LocatedDocument} {text : List Char} {v : Value}
      (htext : decodeUtf8Sig body = some text) (hv : r.loads text = .ok v)
      (hblocks : gather (Node.blocks r.stack) (nodes v 0 DocumentReaders.rootPath)
        = .ok document.blocks) : Parses r body .json document

/-- A document that is parsed has its blocks from there. -/
theorem parses_of_parse {r : DocumentReaders} {format : DocumentFormat} {body : Bytes}
    {document : LocatedDocument} (h : r.parse format body = .ok document) :
    r.Parses body format document := by
  unfold DocumentReaders.parse at h
  split at h
  · obtain ⟨text, htext, h⟩ := Except.bind_eq_ok.mp h
    obtain ⟨blocks, hblocks, h⟩ := Except.bind_eq_ok.mp h
    cases h
    obtain ⟨before, hbefore, hblocks⟩ := Except.bind_eq_ok.mp hblocks
    split at hblocks
    · rename_i hcsv
      cases hblocks
      have htable : r.structured.csv text = .ok (r.csv text).1 := by
        show (match r.csv text with
          | (table, none) => Except.ok table
          | (_, some e) => Except.error e) = Except.ok (r.csv text).1
        generalize r.csv text = found at hcsv
        obtain ⟨table, raised⟩ := found
        obtain rfl : raised = none := hcsv
        rfl
      have helements : r.structured.elements .csv body = .ok (.csv (r.csv text).1) := by
        show (textOf body >>= fun text => Elements.csv <$> r.structured.csv text) = _
        rw [htext, Except.ok_bind, htable]
        rfl
      exact .elements helements hbefore
    · cases hblocks
  · obtain ⟨text, htext, h⟩ := Except.bind_eq_ok.mp h
    obtain ⟨v, hv, h⟩ := Except.bind_eq_ok.mp h
    obtain ⟨blocks, hblocks, h⟩ := Except.bind_eq_ok.mp h
    cases h
    rw [walk_eq] at hblocks
    exact .json (textOf_eq_ok.mp htext) hv hblocks
  · obtain ⟨pages, -, h⟩ := Except.bind_eq_ok.mp h
    obtain ⟨blocks, hblocks, h⟩ := Except.bind_eq_ok.mp h
    cases h
    exact .pages hblocks
  · obtain ⟨parsed, hparsed, rfl⟩ := Except.map_eq_ok.mp h
    unfold Readers.parse at hparsed
    split at hparsed
    case h_5 =>
      have hdecoded {format : DocumentFormat} {text : List Char}
          (h : (if format = .markdown then markdown text else plain format text) = .ok parsed) :
          r.Parses body format parsed.located := by
        split_ifs at h
        · obtain ⟨blocks, hblocks, h⟩ := Except.bind_eq_ok.mp h
          cases h
          exact .text hblocks
        · obtain ⟨blocks, hblocks, h⟩ := Except.bind_eq_ok.mp h
          cases h
          exact .text hblocks
      unfold parseFormat at hparsed
      split at hparsed
      · split at hparsed
        · cases hparsed
        · exact hdecoded hparsed
      · split at hparsed
        · cases hparsed
        · exact hdecoded hparsed
      · cases hparsed
    all_goals
      obtain ⟨elements, helements, hparsed⟩ := Except.bind_eq_ok.mp hparsed
      obtain ⟨blocks, hblocks, hparsed⟩ := Except.bind_eq_ok.mp hparsed
      cases hparsed
      exact .elements helements hblocks

/-! ### Chunks -/

/-- The block with its path, if the path is a text. -/
def LocatedBlock.resolved (b : LocatedBlock) : Option DocumentBlock :=
  match b.jsonPath with
  | none => some b.block
  | some path => (PyStr.chars? path).map fun cs =>
      { b.block with locator := { b.block.locator with jsonPath := some cs } }

/-- The chunks of one more block.  `_digest` encodes the locator of each. -/
def chunkLocatedBlock (targetTokens overlapTokens : ℕ) (chunks : List DocumentChunk)
    (source : LocatedBlock) : Py (List DocumentChunk) :=
  match source.resolved with
  | some b => chunkBlock targetTokens overlapTokens chunks b
  | none =>
    if windowsOf targetTokens overlapTokens source.block = [] then .ok chunks
    else .error (.valueError "'utf-8' codec can't encode: surrogates not allowed")

/-- `chunk_document`. -/
def LocatedDocument.chunks (document : LocatedDocument) (targetTokens overlapTokens : ℤ) :
    Py (List DocumentChunk) := do
  if targetTokens ≤ 0 then throw (.valueError "target_tokens must be positive")
  if overlapTokens < 0 ∨ targetTokens ≤ overlapTokens then
    throw (.valueError "overlap_tokens must be non-negative and smaller than target_tokens")
  document.blocks.foldlM (chunkLocatedBlock targetTokens.toNat overlapTokens.toNat) []

/-! ### Blocks are valid -/

section Valid

theorem valid_of_block {kind : StructureKind} {text : List Char} {start : ℕ}
    {repeatPrefix : Option (List Char)} {place : ℕ → ℕ → ChunkLocator} {new : List DocumentBlock}
    (h : Option.toList <$> block kind text start repeatPrefix place = .ok new) :
    ∀ b ∈ new, b.Valid := by
  obtain ⟨item, hitem, rfl⟩ := Except.map_eq_ok.mp h
  intro b hb
  obtain rfl := Option.mem_toList.mp hb
  unfold block at hitem
  dsimp only at hitem
  split_ifs at hitem
  · cases hitem
  obtain ⟨locator, -, hitem⟩ := Except.bind_eq_ok.mp hitem
  obtain ⟨b', hb', hsome⟩ := Except.map_eq_ok.mp hitem
  cases hsome
  unfold validated at hb'
  split_ifs at hb' with hvalid
  cases hb'
  exact hvalid

/-- Each block of a loop is one of an element's. -/
theorem valid_of_collect {σ α : Type} {next : σ → α → σ} {out : σ → α → Py (List DocumentBlock)}
    (hout : ∀ s a new, out s a = .ok new → ∀ b ∈ new, b.Valid) {s : σ} {l : List α}
    {blocks : List DocumentBlock} (h : collect next out s l = .ok blocks) :
    ∀ b ∈ blocks, b.Valid := by
  intro b hb
  obtain ⟨before, a, behind, new, -, hnew, hmem⟩ := (mem_collect h).mp hb
  exact hout _ a new hnew b hmem

theorem valid_of_paragraphs
    {classify : Option (List Char) → List Char → StructureKind × Option (List Char)}
    {paragraphs : List (List Char)} {before : Option (List Char)} {index offset : ℕ}
    {blocks : List DocumentBlock}
    (h : paragraphBlocks classify before index offset paragraphs = .ok blocks) :
    ∀ b ∈ blocks, b.Valid := by
  induction paragraphs generalizing before index offset blocks with
  | nil =>
    cases h
    exact List.forall_mem_nil _
  | cons p paragraphs ih =>
    obtain ⟨item, hitem, h⟩ := Except.bind_eq_ok.mp h
    obtain ⟨items, hitems, h⟩ := Except.bind_eq_ok.mp h
    cases h
    rw [List.forall_mem_append]
    exact ⟨valid_of_block (Except.map_eq_ok.mpr ⟨item, hitem, rfl⟩), ih hitems⟩

theorem valid_of_rows {sheet : Option (List Char)} {table : List Row} {blocks : List DocumentBlock}
    (h : rows sheet table = .ok blocks) : ∀ b ∈ blocks, b.Valid := by
  apply valid_of_collect _ h
  intro s row new hnew
  unfold rowsOut at hnew
  by_cases hblank : stripBars (rendered row) = []
  · rw [if_pos hblank] at hnew
    cases hnew
    exact List.forall_mem_nil _
  · rw [if_neg hblank] at hnew
    exact valid_of_block hnew

theorem valid_of_docx {contents : List DocxContent} {blocks : List DocumentBlock}
    (h : docxBlocks contents = .ok blocks) : ∀ b ∈ blocks, b.Valid := by
  apply valid_of_collect _ h
  intro s content new hnew
  cases content with
  | paragraph style text => exact valid_of_block hnew
  | table table =>
    obtain ⟨rows, hrows, hnew⟩ := Except.bind_eq_ok.mp hnew
    cases hnew
    exact List.forall_mem_map.mpr (valid_of_rows hrows)

theorem valid_of_html {nodes : List HtmlNode} {blocks : List DocumentBlock}
    (h : htmlBlocks nodes = .ok blocks) : ∀ b ∈ blocks, b.Valid := by
  apply valid_of_collect _ h
  intro s node new hnew
  match node with
  | .heading text => exact valid_of_block hnew
  | .paragraph text => exact valid_of_block hnew
  | .row none cells => cases hnew
  | .row (some table) cells => exact valid_of_block hnew

theorem valid_of_elements {elements : Elements} {blocks : List DocumentBlock}
    (h : elements.blocks = .ok blocks) : ∀ b ∈ blocks, b.Valid := by
  cases elements with
  | csv table => exact valid_of_rows h
  | docx contents => exact valid_of_docx h
  | xlsx sheets =>
    obtain ⟨parts, hparts, rfl⟩ := Except.map_eq_ok.mp h
    intro b hb
    obtain ⟨part, hpart, hb⟩ := List.mem_flatten.mp hb
    obtain ⟨sheet, -, hsheet⟩ := Except.exists_of_mem_mapM hparts hpart
    exact valid_of_rows hsheet b hb
  | html nodes => exact valid_of_html h

theorem valid_of_scalar {rendered path : PyStr} {blocks : List LocatedBlock}
    (h : scalarBlock rendered path = .ok blocks) : ∀ b ∈ blocks, b.block.Valid := by
  unfold scalarBlock at h
  split at h
  · cases h
  · obtain ⟨-, -, h⟩ := Except.bind_eq_ok.mp h
    obtain ⟨item, hitem, h⟩ := Except.bind_eq_ok.mp h
    cases h
    exact List.forall_mem_map.mpr (valid_of_block (Except.map_eq_ok.mpr ⟨item, hitem, rfl⟩))

theorem valid_of_nodes {stack : Stack} {l : List Node} {blocks : List LocatedBlock}
    (h : gather (Node.blocks stack) l = .ok blocks) : ∀ b ∈ blocks, b.block.Valid := by
  obtain ⟨parts, hparts, rfl⟩ := gather_eq_ok_iff.mp h
  intro b hb
  obtain ⟨part, hpart, hb⟩ := List.mem_flatten.mp hb
  obtain ⟨node, -, hnode⟩ := exists_of_mem_forall₂ hparts hpart
  unfold Node.blocks at hnode
  split_ifs at hnode
  split at hnode
  · cases hnode
    exact absurd hb List.not_mem_nil
  · exact valid_of_scalar hnode b hb

/-- The blocks of a parsed document pass their validators. -/
theorem valid_of_parse {r : DocumentReaders} {format : DocumentFormat} {body : Bytes}
    {document : LocatedDocument} (h : r.parse format body = .ok document) :
    ∀ b ∈ document.blocks, b.block.Valid := by
  cases parses_of_parse h with
  | text hblocks => exact List.forall_mem_map.mpr (valid_of_paragraphs hblocks)
  | pages hblocks =>
    exact List.forall_mem_map.mpr (valid_of_collect (fun _ _ _ => valid_of_block) hblocks)
  | elements _ hblocks => exact List.forall_mem_map.mpr (valid_of_elements hblocks)
  | json _ _ hblocks => exact valid_of_nodes hblocks

end Valid

/-! ### Chunking -/

/-- Where every path is a text, the chunker goes through the resolved blocks. -/
theorem foldlM_resolved {targetTokens overlapTokens : ℕ} {sources : List LocatedBlock}
    {blocks : List DocumentBlock} (h : sources.map LocatedBlock.resolved = blocks.map some)
    (chunks : List DocumentChunk) :
    sources.foldlM (chunkLocatedBlock targetTokens overlapTokens) chunks
      = blocks.foldlM (chunkBlock targetTokens overlapTokens) chunks := by
  induction sources generalizing blocks chunks with
  | nil => rw [List.map_eq_nil_iff.mp h.symm]; rfl
  | cons source sources ih =>
    cases blocks with
    | nil => cases h
    | cons b blocks =>
      obtain ⟨hfirst, hrest⟩ := List.cons.inj h
      rw [List.foldlM_cons, List.foldlM_cons, chunkLocatedBlock, hfirst]
      exact congrArg _ (funext fun chunks => ih hrest chunks)

/-- The words of a valid block are in windows. -/
theorem windowsOf_ne_nil {b : DocumentBlock} (h : b.Valid) (targetTokens overlapTokens : ℕ) :
    windowsOf targetTokens overlapTokens b ≠ [] := by
  unfold windowsOf
  dsimp only
  rw [windows, if_pos (length_finditer_pos h)]
  exact List.cons_ne_nil _ _

theorem valid_of_resolved {source : LocatedBlock} {b : DocumentBlock} (h : source.resolved = some b)
    (hvalid : source.block.Valid) : b.Valid := by
  unfold LocatedBlock.resolved at h
  split at h
  · cases h
    exact hvalid
  · obtain ⟨cs, -, rfl⟩ := Option.map_eq_some_iff.mp h
    exact hvalid

/-- A document is chunked if every path is a text. -/
theorem exists_chunks_iff {document : LocatedDocument}
    (hvalid : ∀ b ∈ document.blocks, b.block.Valid) {targetTokens overlapTokens : ℤ}
    (htarget : 0 < targetTokens) (hoverlap : 0 ≤ overlapTokens)
    (hless : overlapTokens < targetTokens) :
    (∃ chunks, document.chunks targetTokens overlapTokens = .ok chunks)
      ↔ ∀ b ∈ document.blocks, b.resolved.isSome = true := by
  have hloop : ∀ sources : List LocatedBlock, (∀ b ∈ sources, b.block.Valid) → ∀ chunks,
      (∃ all, sources.foldlM (chunkLocatedBlock targetTokens.toNat overlapTokens.toNat) chunks
        = .ok all) ↔ ∀ b ∈ sources, b.resolved.isSome = true := by
    intro sources hsources chunks
    induction sources generalizing chunks with
    | nil => exact ⟨fun _ => List.forall_mem_nil _, fun _ => ⟨chunks, rfl⟩⟩
    | cons source sources ih =>
      obtain ⟨hfirst, hrest⟩ := List.forall_mem_cons.mp hsources
      rw [List.foldlM_cons, List.forall_mem_cons, chunkLocatedBlock]
      cases hresolved : source.resolved with
      | none =>
        simp only [if_neg (windowsOf_ne_nil hfirst targetTokens.toNat overlapTokens.toNat)]
        refine ⟨?_, fun h => absurd h.1 (by decide)⟩
        rintro ⟨all, hall⟩
        cases hall
      | some b =>
        obtain ⟨new, hnew, -⟩ := @exists_chunkBlock_windows b
          (valid_of_resolved hresolved hfirst) targetTokens.toNat overlapTokens.toNat chunks
        simp only [hnew, Except.ok_bind]
        rw [ih hrest]
        exact (and_iff_right rfl).symm
  unfold LocatedDocument.chunks
  rw [if_neg (Int.not_le.mpr htarget), if_neg (by omega)]
  exact hloop document.blocks hvalid []

end Agora.Ingestion.Chunking
