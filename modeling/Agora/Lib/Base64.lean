import Agora.Lib.Bytes
import Agora.Lib.HexText

namespace Agora.Base64

/-!
# Base64 for URLs

`base64.urlsafe_b64encode`, and `base64.b64decode` of that alphabet with `validate=True`.  An encoded text
without its padding is padded again from its length alone (`pad_stripPad_encode`), and is decoded
to the bytes that it was made of (`decode_encode`).  `base64.urlsafe_b64decode` skips what is not of
the alphabet and does the same (`decodeLenient_encode`).
-/

/-- The letters, the digits, `-` and `_`. -/
def alphabet : List Char :=
  "ABCDEFGHIJKLMNOPQRSTUVWXYZabcdefghijklmnopqrstuvwxyz0123456789-_".toList

/-- The character of six bits. -/
def digit (n : ℕ) : Char := alphabet.getD (n % 64) 'A'

/-- The six bits of a character.  The usual characters for 62 and 63 are read too. -/
def value (c : Char) : Option ℕ :=
  if c = '+' then some 62 else if c = '/' then some 63 else alphabet.idxOf? c

/-- `base64.urlsafe_b64encode`. -/
def encode : Bytes → List Char
  | [] => []
  | [x] => [digit (x.toNat / 4), digit (x.toNat % 4 * 16), '=', '=']
  | [x, y] =>
    [digit (x.toNat / 4), digit (x.toNat % 4 * 16 + y.toNat / 16), digit (y.toNat % 16 * 4), '=']
  | x :: y :: z :: b =>
    digit (x.toNat / 4) :: digit (x.toNat % 4 * 16 + y.toNat / 16)
      :: digit (y.toNat % 16 * 4 + z.toNat / 64) :: digit (z.toNat % 64) :: encode b

/-- `base64.b64decode(text, altchars=b"-_", validate=True)`, `none` where it raises. -/
def decode : List Char → Option Bytes
  | [] => some []
  | a :: b :: c :: d :: text => do
    let u ← value a
    let v ← value b
    if d = '=' then
      if text ≠ [] then none
      else if c = '=' then some [UInt8.ofNat (u * 4 + v / 16)]
      else do
        let w ← value c
        some [UInt8.ofNat (u * 4 + v / 16), UInt8.ofNat (v % 16 * 16 + w / 4)]
    else do
      let w ← value c
      let x ← value d
      let bytes ← decode text
      some (UInt8.ofNat (u * 4 + v / 16) :: UInt8.ofNat (v % 16 * 16 + w / 4)
        :: UInt8.ofNat (w % 4 * 64 + x) :: bytes)
  | _ => none

/-- The rest of a text after `quad` characters of a group of four, `left` being the bits that are still
    to be used and `pads` how many pads have followed. -/
def decodeLenientFrom : ℕ → ℕ → ℕ → List Char → Option Bytes
  | quad, _, _, [] => if quad = 0 then some [] else none
  | quad, left, pads, c :: text =>
    if c = '=' then
      if quad < 2 then decodeLenientFrom quad left pads text
      else if 4 ≤ quad + (pads + 1) then some []
      else decodeLenientFrom quad left (pads + 1) text
    else match value c with
      | none => decodeLenientFrom quad left pads text
      | some v =>
        match quad with
        | 0 => decodeLenientFrom 1 v 0 text
        | 1 => (decodeLenientFrom 2 (v % 16) 0 text).map (UInt8.ofNat (left * 4 + v / 16) :: ·)
        | 2 => (decodeLenientFrom 3 (v % 4) 0 text).map (UInt8.ofNat (left * 16 + v / 4) :: ·)
        | _ => (decodeLenientFrom 0 0 0 text).map (UInt8.ofNat (left * 64 + v) :: ·)

/-- `base64.urlsafe_b64decode(text)`, `none` where it raises. -/
def decodeLenient (text : List Char) : Option Bytes := decodeLenientFrom 0 0 0 text

/-- `text.rstrip("=")`. -/
def stripPad (text : List Char) : List Char := text.rdropWhile (· = '=')

/-- `text + "=" * (-len(text) % 4)`. -/
def pad (text : List Char) : List Char := text ++ List.replicate ((4 - text.length % 4) % 4) '='

/-! ### Characters -/

theorem alphabet_eq : alphabet =
    ['A', 'B', 'C', 'D', 'E', 'F', 'G', 'H', 'I', 'J', 'K', 'L', 'M', 'N', 'O', 'P', 'Q',
      'R', 'S', 'T', 'U', 'V', 'W', 'X', 'Y', 'Z', 'a', 'b', 'c', 'd', 'e', 'f', 'g', 'h',
      'i', 'j', 'k', 'l', 'm', 'n', 'o', 'p', 'q', 'r', 's', 't', 'u', 'v', 'w', 'x', 'y',
      'z', '0', '1', '2', '3', '4', '5', '6', '7', '8', '9', '-', '_'] := by
  rfl

theorem length_alphabet : alphabet.length = 64 := by
  rw [alphabet_eq]
  rfl

theorem digit_mem (n : ℕ) : digit n ∈ alphabet := by
  have hlt : n % 64 < alphabet.length := by
    rw [length_alphabet]
    exact Nat.mod_lt n (by decide)
  rw [digit, List.getD_eq_getElem _ _ hlt]
  exact List.getElem_mem hlt

theorem value_digit {n : ℕ} (h : n < 64) : value (digit n) = some n := by
  have hcodes : (alphabet.map Char.toNat).Nodup := by
    rw [alphabet_eq]
    decide
  have hnodup : alphabet.Nodup := hcodes.of_map
  have hsigns : '+' ∉ alphabet ∧ '/' ∉ alphabet := by simp [alphabet_eq]
  have hlt : n < alphabet.length := by rwa [length_alphabet]
  have hdigit : digit n = alphabet[n] := by
    rw [digit, Nat.mod_eq_of_lt h, List.getD_eq_getElem _ _ hlt]
  have hplus : digit n ≠ '+' := fun heq => hsigns.1 (heq ▸ digit_mem n)
  have hslash : digit n ≠ '/' := fun heq => hsigns.2 (heq ▸ digit_mem n)
  rw [value, if_neg hplus, if_neg hslash, List.idxOf?_eq_some_iff]
  refine ⟨hlt, hdigit.symm, fun j hj => ?_⟩
  rw [hdigit, hnodup.getElem_inj_iff]
  exact hj.ne

theorem digit_ne_pad (n : ℕ) : digit n ≠ '=' := by
  have hpad : '=' ∉ alphabet := by simp [alphabet_eq]
  exact fun heq => hpad (heq ▸ digit_mem n)

/-! ### Padding -/

/-- An encoded text has some padding at its end, and none before. -/
theorem exists_encode_eq (b : Bytes) : ∃ ds k, encode b = ds ++ List.replicate k '='
    ∧ (∀ c ∈ ds, c ≠ '=') ∧ k < 4 ∧ (ds.length + k) % 4 = 0 := by
  fun_induction encode b with
  | case1 => exact ⟨[], 0, rfl, List.forall_mem_nil _, by decide, rfl⟩
  | case2 x =>
    refine ⟨[_, _], 2, rfl, ?_, by decide, by simp⟩
    simp [digit_ne_pad]
  | case3 x y =>
    refine ⟨[_, _, _], 1, rfl, ?_, by decide, by simp⟩
    simp [digit_ne_pad]
  | case4 x y z b ih =>
    obtain ⟨ds, k, heq, hds, hk, hlength⟩ := ih
    refine ⟨_ :: _ :: _ :: _ :: ds, k, by rw [heq]; rfl, ?_, hk, ?_⟩
    · simpa [digit_ne_pad] using hds
    · simp only [List.length_cons]
      omega

theorem stripPad_append {ds : List Char} (h : ∀ c ∈ ds, c ≠ '=') (k : ℕ) :
    stripPad (ds ++ List.replicate k '=') = ds := by
  have hpad : ∀ c ∈ (List.replicate k '=').reverse, decide (c = '=') = true := by
    intro c hc
    rw [List.reverse_replicate] at hc
    exact decide_eq_true (List.eq_of_mem_replicate hc)
  have hfirst : ∀ c ∈ ds.reverse, decide (c = '=') = false := fun c hc =>
    decide_eq_false (h c (List.mem_reverse.mp hc))
  unfold stripPad List.rdropWhile
  rw [List.reverse_append, List.dropWhile_append_of_pos hpad, (dropWhile_eq_self hfirst).1,
    List.reverse_reverse]

/-- **Padding.**  It is known from the length of the rest. -/
theorem pad_stripPad_encode (b : Bytes) : pad (stripPad (encode b)) = encode b := by
  obtain ⟨ds, k, heq, hds, hk, hlength⟩ := exists_encode_eq b
  have hpad : (4 - ds.length % 4) % 4 = k := by omega
  rw [heq, stripPad_append hds, pad, hpad]

/-! ### Round trip -/

theorem first_byte (x y : UInt8) :
    UInt8.ofNat (x.toNat / 4 * 4 + (x.toNat % 4 * 16 + y.toNat / 16) / 16) = x := by
  have hy := y.toNat_lt
  have hbits : x.toNat / 4 * 4 + (x.toNat % 4 * 16 + y.toNat / 16) / 16 = x.toNat := by omega
  rw [hbits, UInt8.ofNat_toNat]

theorem second_byte (x y z : UInt8) :
    UInt8.ofNat ((x.toNat % 4 * 16 + y.toNat / 16) % 16 * 16
      + (y.toNat % 16 * 4 + z.toNat / 64) / 4) = y := by
  have hy := y.toNat_lt
  have hz := z.toNat_lt
  have hbits : (x.toNat % 4 * 16 + y.toNat / 16) % 16 * 16
      + (y.toNat % 16 * 4 + z.toNat / 64) / 4 = y.toNat := by omega
  rw [hbits, UInt8.ofNat_toNat]

theorem third_byte (y z : UInt8) :
    UInt8.ofNat ((y.toNat % 16 * 4 + z.toNat / 64) % 4 * 64 + z.toNat % 64) = z := by
  have hz := z.toNat_lt
  have hbits : (y.toNat % 16 * 4 + z.toNat / 64) % 4 * 64 + z.toNat % 64 = z.toNat := by omega
  rw [hbits, UInt8.ofNat_toNat]

theorem value_high (x : UInt8) : value (digit (x.toNat / 4)) = some (x.toNat / 4) := by
  have hx := x.toNat_lt
  exact value_digit (by omega)

theorem value_middle (x y : UInt8) : value (digit (x.toNat % 4 * 16 + y.toNat / 16))
    = some (x.toNat % 4 * 16 + y.toNat / 16) := by
  have hy := y.toNat_lt
  exact value_digit (by omega)

theorem value_low (y z : UInt8) : value (digit (y.toNat % 16 * 4 + z.toNat / 64))
    = some (y.toNat % 16 * 4 + z.toNat / 64) := by
  have hz := z.toNat_lt
  exact value_digit (by omega)

theorem value_last (z : UInt8) : value (digit (z.toNat % 64)) = some (z.toNat % 64) :=
  value_digit (Nat.mod_lt _ (by decide))

/-- One byte has no bits in the second character but its own, and two have none in the third. -/
theorem value_single (x : UInt8) : value (digit (x.toNat % 4 * 16)) = some (x.toNat % 4 * 16) := by
  have hmiddle := value_middle x 0
  rwa [UInt8.toNat_zero, Nat.zero_div, Nat.add_zero] at hmiddle

theorem value_pair (y : UInt8) : value (digit (y.toNat % 16 * 4)) = some (y.toNat % 16 * 4) := by
  have hlow := value_low y 0
  rwa [UInt8.toNat_zero, Nat.zero_div, Nat.add_zero] at hlow

theorem first_byte_single (x : UInt8) :
    UInt8.ofNat (x.toNat / 4 * 4 + x.toNat % 4 * 16 / 16) = x := by
  have hfirst := first_byte x 0
  rwa [UInt8.toNat_zero, Nat.zero_div, Nat.add_zero] at hfirst

theorem second_byte_pair (x y : UInt8) :
    UInt8.ofNat ((x.toNat % 4 * 16 + y.toNat / 16) % 16 * 16 + y.toNat % 16 * 4 / 4) = y := by
  have hsecond := second_byte x y 0
  rwa [UInt8.toNat_zero, Nat.zero_div, Nat.add_zero] at hsecond

/-- **Round trip.**  What was encoded is decoded. -/
theorem decode_encode (b : Bytes) : decode (encode b) = some b := by
  fun_induction encode b with
  | case1 => rfl
  | case2 x =>
    rw [decode, value_high, value_single]
    show some [UInt8.ofNat (x.toNat / 4 * 4 + x.toNat % 4 * 16 / 16)] = _
    rw [first_byte_single]
  | case3 x y =>
    rw [decode, value_high, value_middle, Option.bind_eq_bind, Option.bind_some, Option.bind_eq_bind,
      Option.bind_some, if_pos rfl, if_neg (not_not.mpr rfl), if_neg (digit_ne_pad _), value_pair]
    show some [UInt8.ofNat (x.toNat / 4 * 4 + (x.toNat % 4 * 16 + y.toNat / 16) / 16),
      UInt8.ofNat ((x.toNat % 4 * 16 + y.toNat / 16) % 16 * 16 + y.toNat % 16 * 4 / 4)] = _
    rw [first_byte, second_byte_pair]
  | case4 x y z b ih =>
    rw [decode, value_high, value_middle, Option.bind_eq_bind, Option.bind_some, Option.bind_eq_bind,
      Option.bind_some, if_neg (digit_ne_pad _), value_low, value_last, ih]
    show some (UInt8.ofNat (x.toNat / 4 * 4 + (x.toNat % 4 * 16 + y.toNat / 16) / 16)
      :: UInt8.ofNat ((x.toNat % 4 * 16 + y.toNat / 16) % 16 * 16
        + (y.toNat % 16 * 4 + z.toNat / 64) / 4)
      :: UInt8.ofNat ((y.toNat % 16 * 4 + z.toNat / 64) % 4 * 64 + z.toNat % 64) :: b) = _
    rw [first_byte, second_byte, third_byte]

/-! ### The lenient decoder -/

section Lenient

variable {left pads v : ℕ} {c : Char} {text : List Char}

theorem decodeLenientFrom_first (hpad : c ≠ '=') (hv : value c = some v) :
    decodeLenientFrom 0 left pads (c :: text) = decodeLenientFrom 1 v 0 text := by
  simp only [decodeLenientFrom, if_neg hpad, hv]

theorem decodeLenientFrom_second (hpad : c ≠ '=') (hv : value c = some v) :
    decodeLenientFrom 1 left pads (c :: text)
      = (decodeLenientFrom 2 (v % 16) 0 text).map (UInt8.ofNat (left * 4 + v / 16) :: ·) := by
  simp only [decodeLenientFrom, if_neg hpad, hv]

theorem decodeLenientFrom_third (hpad : c ≠ '=') (hv : value c = some v) :
    decodeLenientFrom 2 left pads (c :: text)
      = (decodeLenientFrom 3 (v % 4) 0 text).map (UInt8.ofNat (left * 16 + v / 4) :: ·) := by
  simp only [decodeLenientFrom, if_neg hpad, hv]

theorem decodeLenientFrom_fourth (hpad : c ≠ '=') (hv : value c = some v) :
    decodeLenientFrom 3 left pads (c :: text)
      = (decodeLenientFrom 0 0 0 text).map (UInt8.ofNat (left * 64 + v) :: ·) := by
  simp only [decodeLenientFrom, if_neg hpad, hv]

/-- The pads of one byte and of two end the text. -/
theorem decodeLenientFrom_pads :
    decodeLenientFrom 2 left 0 ['=', '='] = some [] ∧ decodeLenientFrom 3 left 0 ['='] = some [] := by
  simp [decodeLenientFrom]

end Lenient

/-- What was encoded is decoded leniently as well. -/
theorem decodeLenient_encode (b : Bytes) : decodeLenient (encode b) = some b := by
  unfold decodeLenient
  fun_induction encode b with
  | case1 => rfl
  | case2 x =>
    rw [decodeLenientFrom_first (digit_ne_pad _) (value_high x),
      decodeLenientFrom_second (digit_ne_pad _) (value_single x), decodeLenientFrom_pads.1,
      Option.map_some, first_byte_single]
  | case3 x y =>
    rw [decodeLenientFrom_first (digit_ne_pad _) (value_high x),
      decodeLenientFrom_second (digit_ne_pad _) (value_middle x y),
      decodeLenientFrom_third (digit_ne_pad _) (value_pair y), decodeLenientFrom_pads.2,
      Option.map_some, Option.map_some, first_byte, second_byte_pair]
  | case4 x y z b ih =>
    rw [decodeLenientFrom_first (digit_ne_pad _) (value_high x),
      decodeLenientFrom_second (digit_ne_pad _) (value_middle x y),
      decodeLenientFrom_third (digit_ne_pad _) (value_low y z),
      decodeLenientFrom_fourth (digit_ne_pad _) (value_last z), ih,
      Option.map_some, Option.map_some, Option.map_some, first_byte, second_byte, third_byte]

end Agora.Base64
