import Agora.Reasoning.PythonValues
import Agora.Lib.JsonBytes

namespace Agora.Reasoning

/-!
# Canonical JSON

`canonical_json` writes the canonical bytes of a Python value.  The bytes of two values are equal
exactly when the values are equal as JSON, and what `json.loads` reads in them has the same bytes
(`canonicalJson_faithful`).
-/

/-- How deep values may be nested.  `_json_value` and `_canonical` take Python frames for every
    level, the scanner of `json.loads` takes one level of the C stack. -/
structure RecursionLimits where
  python : ℕ
  json : ℕ
  python_le_json : python ≤ json

variable (limits : RecursionLimits)

/-- `canonical_json`.  A long integer has no text and a key with a surrogate no encoding. -/
def canonicalJson (v : PyValue) : Py Bytes := do
  let j ← v.tree.jsonValue
  if limits.python < j.depth then .error Json.recursionLimitError
  else if j.encodable then .ok (utf8 j.canonical)
  else .error (.valueError "value has no canonical text")

/-- `json.loads(b)` as a Python value. -/
def loads (decode : Json.Encoding → Bytes → Py (List Char)) (b : Bytes) : Py PyValue :=
  match h : Json.loadsBytes decode limits.json b with
  | .ok j => .ok ⟨.ofJson j, PyTree.distinctKeys_ofJson j (Json.uniqueKeys_of_loadsBytes h)⟩
  | .error e => .error e

/-! ### Results -/

variable {limits} {v w : PyValue} {b c : Bytes}

theorem canonicalJson_eq_ok (h : canonicalJson limits v = .ok b) :
    ∃ j, v.tree.Accepted j ∧ j.depth ≤ limits.python ∧ utf8 j.canonical = b := by
  obtain ⟨j, hj, h⟩ := Except.bind_eq_ok.mp h
  split_ifs at h with hdepth henc
  exact ⟨j, ⟨v.distinct, hj, henc⟩, not_lt.mp hdepth, Except.ok.inj h⟩

/-- **Bytes.**  They are equal exactly when the values are equal as JSON. -/
theorem bytes_eq_iff (hv : canonicalJson limits v = .ok b) (hw : canonicalJson limits w = .ok c) :
    b = c ↔ v.tree.sameJson w.tree = true := by
  obtain ⟨i, hi, -, rfl⟩ := canonicalJson_eq_ok hv
  obtain ⟨j, hj, -, rfl⟩ := canonicalJson_eq_ok hw
  rw [utf8_injective.eq_iff, PyTree.sameNormal _ _ _ _ hi hj]
  exact Json.canonical_eq_iff hi.encodable hj.encodable (PyTree.uniqueKeys_of_accepted _ _ hi)
    (PyTree.uniqueKeys_of_accepted _ _ hj)

/-- **Reading back.**  What is read in the bytes has the same bytes. -/
theorem canonicalJson_loads (decode : Json.Encoding → Bytes → Py (List Char))
    (h : canonicalJson limits v = .ok b) :
    (loads limits decode b >>= canonicalJson limits) = .ok b := by
  obtain ⟨j, hj, hdepth, rfl⟩ := canonicalJson_eq_ok h
  have hread : Json.loadsBytes decode limits.json (utf8 j.canonical) = .ok j.normalize := by
    rw [Json.loadsBytes, Json.decodeBytes_canonical decode hj.encodable, Except.ok_bind]
    have hloads := Json.loads_canonical hj.encodable (PyTree.uniqueKeys_of_accepted _ _ hj)
      (hdepth.trans limits.python_le_json) (.inl rfl)
    rwa [List.append_nil] at hloads
  unfold loads
  split
  · next i hi =>
    obtain rfl := Except.ok.inj (hi.symm.trans hread)
    have henc := Json.encodable_normalize j hj.encodable
    rw [Except.ok_bind, canonicalJson, PyTree.jsonValue_ofJson _ henc, Except.ok_bind,
      if_neg (not_lt.mpr ((Json.depth_normalize j).trans hdepth)), if_pos henc,
      Json.canonical_normalize]
  · next e he =>
    rw [hread] at he
    cases he

/-- **Canonical JSON.**  The bytes of two accepted values are equal exactly when the values are equal
    as JSON, and reading the bytes and writing them again gives the same bytes. -/
theorem canonicalJson_faithful (decode : Json.Encoding → Bytes → Py (List Char))
    (hv : canonicalJson limits v = .ok b) (hw : canonicalJson limits w = .ok c) :
    (b = c ↔ v.tree.sameJson w.tree = true)
      ∧ (loads limits decode b >>= canonicalJson limits) = .ok b :=
  ⟨bytes_eq_iff hv hw, canonicalJson_loads decode hv⟩

def sampleLimits : RecursionLimits := ⟨500, 1000, by decide⟩

/-- `{"b": [1, None], "a": "é"}`. -/
def withList : PyValue where
  tree := .dict [(.str (.ofString "b"), .list [.int 1, .none]), (.str (.ofString "a"), .str (.ofString "é"))]
  distinct := by decide

/-- `{"a": "é", "b": (1, None)}`. -/
def withTuple : PyValue where
  tree := .dict [(.str (.ofString "a"), .str (.ofString "é")), (.str (.ofString "b"), .tuple [.int 1, .none])]
  distinct := by decide

def noCodec : Json.Encoding → Bytes → Py (List Char) := fun _ _ => .error Json.decodeError

def sampleBytes : Bytes := utf8 "\x7b\"a\":\"é\",\"b\":[1,null]\x7d".toList

theorem canonicalJson_faithful_sample :
    (sampleBytes = sampleBytes ↔ withList.tree.sameJson withTuple.tree = true)
      ∧ (loads sampleLimits noCodec sampleBytes >>= canonicalJson sampleLimits) = .ok sampleBytes :=
  canonicalJson_faithful noCodec (v := withList) (w := withTuple) rfl rfl

end Agora.Reasoning
