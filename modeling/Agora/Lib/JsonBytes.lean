import Agora.Lib.CanonicalJson

namespace Agora

/-!
# Reading JSON from bytes

`json.loads` of a byte string guesses its encoding from the first four bytes.  Canonical bytes
start with an ASCII character and have no zero byte, so they are taken for UTF-8
(`decodeBytes_canonical`).
-/

namespace Json

/-! ### The encoding of a byte string -/

/-- The encodings that `json.detect_encoding` tells apart. -/
inductive Encoding where
  | utf8
  | utf8Sig
  | utf16
  | utf16be
  | utf16le
  | utf32
  | utf32be
  | utf32le
deriving DecidableEq

/-- `json.detect_encoding`: a byte order mark, else the place of the zero bytes. -/
def detectEncoding (b : Bytes) : Encoding :=
  if [0x00, 0x00, 0xFE, 0xFF].isPrefixOf b || [0xFF, 0xFE, 0x00, 0x00].isPrefixOf b then .utf32
  else if [0xFE, 0xFF].isPrefixOf b || [0xFF, 0xFE].isPrefixOf b then .utf16
  else if [0xEF, 0xBB, 0xBF].isPrefixOf b then .utf8Sig
  else
    match b with
    | b₀ :: b₁ :: b₂ :: b₃ :: _ =>
      if b₀ = 0 then
        if b₁ ≠ 0 then .utf16be else .utf32be
      else if b₁ = 0 then
        if b₂ ≠ 0 ∨ b₃ ≠ 0 then .utf16le else .utf32le
      else .utf8
    | [b₀, b₁] => if b₀ = 0 then .utf16be else if b₁ = 0 then .utf16le else .utf8
    | _ => .utf8

/-- `b.decode(detect_encoding(b), "surrogatepass")`.  `decode` stands for the other encodings and
    for what is no well-formed UTF-8. -/
def decodeBytes (decode : Encoding → Bytes → Py (List Char)) (b : Bytes) : Py (List Char) :=
  match detectEncoding b with
  | .utf8 =>
    match decodeUtf8 b with
    | some text => .ok text
    | none => decode .utf8 b
  | encoding => decode encoding b

/-- `json.loads(b)`. -/
def loadsBytes (decode : Encoding → Bytes → Py (List Char)) (limit : ℕ) (b : Bytes) : Py Json := do
  loads limit (← decodeBytes decode b)

theorem uniqueKeys_of_loadsBytes {decode : Encoding → Bytes → Py (List Char)} {limit : ℕ} {b : Bytes}
    {j : Json} (h : loadsBytes decode limit b = .ok j) : j.uniqueKeys = true := by
  obtain ⟨text, -, h⟩ := Except.bind_eq_ok.mp h
  exact uniqueKeys_of_loads h

/-! ### Canonical bytes -/

/-- Bytes without a zero that start with an ASCII character are taken for UTF-8. -/
theorem detectEncoding_eq_utf8 {x : UInt8} {b : Bytes} (hx : x.toNat < 0x80)
    (hb : ∀ y ∈ x :: b, y ≠ 0) : detectEncoding (x :: b) = .utf8 := by
  have hne (y : UInt8) (hy : 0x80 ≤ y.toNat) : y ≠ x := by
    rintro rfl
    omega
  have hzero : (0 : UInt8) ≠ x := (hb x List.mem_cons_self).symm
  have hmark : [0x00, 0x00, 0xFE, 0xFF].isPrefixOf (x :: b) = false
      ∧ [0xFF, 0xFE, 0x00, 0x00].isPrefixOf (x :: b) = false
      ∧ [0xFE, 0xFF].isPrefixOf (x :: b) = false ∧ [0xFF, 0xFE].isPrefixOf (x :: b) = false
      ∧ [0xEF, 0xBB, 0xBF].isPrefixOf (x :: b) = false := by
    simp [List.isPrefixOf, hzero, hne 0xFF (by decide), hne 0xFE (by decide), hne 0xEF (by decide)]
  obtain ⟨h₁, h₂, h₃, h₄, h₅⟩ := hmark
  simp only [detectEncoding, h₁, h₂, h₃, h₄, h₅, Bool.or_self, Bool.false_eq_true, if_false]
  split
  · next heq =>
    obtain ⟨rfl, rfl⟩ := List.cons.inj heq
    rw [if_neg (hb _ (by simp)), if_neg (hb _ (by simp))]
  · next heq =>
    obtain ⟨rfl, rfl⟩ := List.cons.inj heq
    rw [if_neg (hb _ (by simp)), if_neg (hb _ (by simp))]
  · rfl

/-- A canonical text starts with an ASCII character. -/
theorem exists_ascii_canonical {j : Json} (h : j.encodable = true) :
    ∃ c cs, j.canonical = c :: cs ∧ c.toNat < 0x80 := by
  have hdigit {c : Char} (hc : c.isDigit = true) : c.toNat < 0x80 := by
    simp only [Char.isDigit, ge_iff_le, Bool.and_eq_true, decide_eq_true_eq] at hc
    have hle : c.toNat ≤ ('9' : Char).toNat := hc.2
    exact hle.trans_lt (by decide)
  cases j with
  | null => exact ⟨_, _, rfl, by decide⟩
  | bool b => cases b <;> exact ⟨_, _, rfl, by decide⟩
  | int n =>
    cases n with
    | ofNat n =>
      show ∃ c cs, Nat.toDigits 10 n = c :: cs ∧ c.toNat < 0x80
      rcases Nat.eq_zero_or_pos n with rfl | hn
      · exact ⟨_, _, rfl, by decide⟩
      · obtain ⟨d, ds, hds, -, hd⟩ := toDigits_eq_cons n hn
        exact ⟨d, ds, hds, hdigit hd⟩
    | negSucc n => exact ⟨_, _, rfl, by decide⟩
  | float m e => cases h
  | str s => exact ⟨_, _, rfl, by decide⟩
  | arr items => exact ⟨_, _, rfl, by decide⟩
  | obj entries => exact ⟨_, _, rfl, by decide⟩

/-- **Decoding.**  Canonical bytes are decoded to the canonical text. -/
theorem decodeBytes_canonical (decode : Encoding → Bytes → Py (List Char)) {j : Json}
    (h : j.encodable = true) : decodeBytes decode (utf8 j.canonical) = .ok j.canonical := by
  obtain ⟨c, cs, hcs, hascii⟩ := exists_ascii_canonical h
  have hfirst : utf8 j.canonical = UInt8.ofNat c.toNat :: utf8 cs := by
    rw [hcs]
    show String.utf8EncodeChar c ++ utf8 cs = _
    have hone : c.val.toNat ≤ 0x7F := Nat.le_of_lt_succ hascii
    simp only [String.utf8EncodeChar, if_pos hone]
    rfl
  have hutf8 : detectEncoding (utf8 j.canonical) = .utf8 := by
    rw [hfirst]
    apply detectEncoding_eq_utf8
    · have hsmall : c.toNat < 256 := by omega
      simpa [Nat.mod_eq_of_lt hsmall] using hascii
    · rw [← hfirst]
      rintro y hy rfl
      have hle : 0x20 ≤ (0 : UInt8).toNat := le_of_mem_utf8 (visible_canonical j) hy
      simp at hle
  rw [decodeBytes, hutf8]
  simp only [decodeUtf8_utf8]

end Json

end Agora
