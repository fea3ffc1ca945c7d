import Agora.Impact.Traversal
import Agora.Lib.Base64
import Agora.Lib.JsonBytes
import Mathlib.Data.Finset.Sort

namespace Agora.Impact.GraphStore

/-!
# Cursors

A cursor is an offset and the fingerprint of a query, as JSON in Base64 without padding.  It is read
back with the query that it was made for, and refused with a query of any other fingerprint
(`decodeCursor_encodeCursor`).
-/

/-! ### Queries -/

inductive Direction where
  | backward
  | forward
  | both
deriving DecidableEq

def Direction.value : Direction → String
  | .backward => "backward"
  | .forward => "forward"
  | .both => "both"

inductive GraphEdgeType where
  | supports
  | opposes
  | contradicts
  | derivedFrom
  | basedOnAssumption
  | formalizes
  | quantifies
  | impacts
  | constrains
  | violates
  | satisfies
  | infeasibleUnknown
  | attacks
  | respondsTo
  | supersedes
  | advocates
deriving DecidableEq

def GraphEdgeType.value : GraphEdgeType → String
  | .supports => "SUPPORTS"
  | .opposes => "OPPOSES"
  | .contradicts => "CONTRADICTS"
  | .derivedFrom => "DERIVED_FROM"
  | .basedOnAssumption => "BASED_ON_ASSUMPTION"
  | .formalizes => "FORMALIZES"
  | .quantifies => "QUANTIFIES"
  | .impacts => "IMPACTS"
  | .constrains => "CONSTRAINS"
  | .violates => "VIOLATES"
  | .satisfies => "SATISFIES"
  | .infeasibleUnknown => "INFEASIBLE_UNKNOWN"
  | .attacks => "ATTACKS"
  | .respondsTo => "RESPONDS_TO"
  | .supersedes => "SUPERSEDES"
  | .advocates => "ADVOCATES"

/-- What a walk is asked for. -/
structure GraphQuery where
  direction : Direction
  workspaceId : UUID
  sessionId : UUID
  rootIds : List UUID
  maxDepth : ℤ
  edgeTypes : Option (Finset GraphEdgeType)

/-- The dictionary that a fingerprint is made of. -/
def GraphQuery.toJson (q : GraphQuery) : Json := .obj
  [(.ofString "direction", .text q.direction.value),
    (.ofString "edge_types", match q.edgeTypes with
      | none => .null
      | some types => .arr (((types.image GraphEdgeType.value).sort (· ≤ ·)).map .text)),
    (.ofString "max_depth", .int q.maxDepth),
    (.ofString "root_ids", .arr ((q.rootIds.map (·.text)).insertionSort (· ≤ ·) |>.map .text)),
    (.ofString "session_id", .text q.sessionId.text),
    (.ofString "workspace_id", .text q.workspaceId.text)]

/-- `_query_fingerprint`. -/
def queryFingerprint (q : GraphQuery) : List Char := Sha256.hexDigest (utf8 q.toJson.canonical)

/-! ### Cursors as texts -/

/-- What a cursor says. -/
def cursorJson (offset : ℕ) (fingerprint : List Char) : Json := .obj
  [(.ofString "offset", .int offset), (.ofString "query", .str (.ofChars fingerprint))]

/-- `_encode_cursor`. -/
def encodeCursor (offset : ℕ) (fingerprint : List Char) : List Char :=
  Base64.stripPad (Base64.encode (utf8 (cursorJson offset fingerprint).canonical))

/-- How deep `json.loads` reads. -/
def recursionLimit : ℕ := 1000

section Decode

variable (decode : Json.Encoding → Bytes → Py (List Char))

/-- `_parse_cursor`. -/
def parseCursor (cursor : List Char) : Py Json :=
  match Base64.decode (Base64.pad cursor) with
  | none => .error (.valueError "invalid base64")
  | some b => Json.loadsBytes decode recursionLimit b

def invalidCursor : PyException := .valueError "invalid traversal cursor"

/-- The offset that a payload has for the query. -/
def offsetOf (fingerprint : List Char) : Json → Py ℕ
  | .obj payload =>
    let keys := payload.map Prod.fst
    if ¬ (.ofString "offset" ∈ keys ∧ .ofString "query" ∈ keys
        ∧ ∀ k ∈ keys, k = .ofString "offset" ∨ k = .ofString "query") then .error invalidCursor
    else match payload.lookup (.ofString "query"), payload.lookup (.ofString "offset") with
      | some (.str query), some (.int offset) =>
        if query = .ofChars fingerprint ∧ 0 ≤ offset then .ok offset.toNat else .error invalidCursor
      | _, _ => .error invalidCursor
  | _ => .error invalidCursor

/-- `_decode_cursor`. -/
def decodeCursor (cursor : Option (List Char)) (fingerprint : List Char) : Py ℕ :=
  match cursor with
  | none => .ok 0
  | some text =>
    match parseCursor decode text with
    | .error e => if e.cls = .valueError then .error invalidCursor else .error e
    | .ok payload => offsetOf fingerprint payload

end Decode

/-! ### Reading back -/

section ReadBack

variable {decode : Json.Encoding → Bytes → Py (List Char)} {offset : ℕ} {fingerprint : List Char}

theorem encodable_cursorJson (h : Json.isPrintable offset = true) (fingerprint : List Char) :
    (cursorJson offset fingerprint).encodable = true := by
  have hscalar (cs : List Char) : Json.isScalar (.ofChars cs) = true := by
    rw [Json.isScalar, PyStr.chars?_ofChars]
    rfl
  simp [cursorJson, Json.encodable, Json.encodableEntries, PyStr.ofString, hscalar, h]

theorem parseCursor_encodeCursor (h : Json.isPrintable offset = true) :
    parseCursor decode (encodeCursor offset fingerprint) = .ok (cursorJson offset fingerprint) := by
  have henc := encodable_cursorJson h fingerprint
  have hkeys : (cursorJson offset fingerprint).uniqueKeys = true := rfl
  have hsorted : (cursorJson offset fingerprint).sortedKeys = true := rfl
  have hdepth : (cursorJson offset fingerprint).depth ≤ recursionLimit := by
    show 1 ≤ 1000
    decide
  have hloads := Json.loads_canonical henc hkeys hdepth (.inl rfl)
  rw [List.append_nil, Json.normalize_eq_self hsorted] at hloads
  unfold parseCursor encodeCursor
  rw [Base64.pad_stripPad_encode, Base64.decode_encode]
  show Json.loadsBytes decode recursionLimit _ = _
  rw [Json.loadsBytes, Json.decodeBytes_canonical decode henc, Except.ok_bind, hloads]

/-- **Cursors.**  A cursor is read with the fingerprint that is in it, and refused with another. -/
theorem decodeCursor_encodeCursor (h : Json.isPrintable offset = true) (fingerprint' : List Char) :
    decodeCursor decode (some (encodeCursor offset fingerprint)) fingerprint'
      = if fingerprint = fingerprint' then .ok offset else .error invalidCursor := by
  unfold decodeCursor
  simp only [parseCursor_encodeCursor h]
  have hinjective : PyStr.ofChars fingerprint = PyStr.ofChars fingerprint'
      ↔ fingerprint = fingerprint' := by
    refine ⟨fun heq => ?_, congrArg PyStr.ofChars⟩
    have hchars := congrArg PyStr.chars? heq
    rw [PyStr.chars?_ofChars, PyStr.chars?_ofChars] at hchars
    exact Option.some.inj hchars
  show (if PyStr.ofChars fingerprint = PyStr.ofChars fingerprint' ∧ (0 : ℤ) ≤ offset then
    Except.ok (offset : ℤ).toNat else .error invalidCursor) = _
  by_cases hsame : fingerprint = fingerprint'
  · rw [if_pos ⟨hinjective.mpr hsame, Int.natCast_nonneg _⟩, if_pos hsame, Int.toNat_natCast]
  · rw [if_neg fun hboth => hsame (hinjective.mp hboth.1), if_neg hsame]

end ReadBack

end Agora.Impact.GraphStore
