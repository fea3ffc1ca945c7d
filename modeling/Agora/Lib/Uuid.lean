import Agora.Lib.Sha256
import Mathlib.Data.List.Induction
import Mathlib.Data.Nat.Bitwise

namespace Agora

/-!
# UUIDs as numbers

The 32 hexadecimal digits of a UUID, the number they stand for, and the two ways a UUID is made: from
128 bits (`UUID.ofInt`) and by hashing a name with SHA-1 (`uuid5`).  The digits, the number and the
canonical text determine each other (`hexNumber_hexDigits`, `hexDigits_hexNumber`, `UUID.ofInt_int`).
-/

/-! ### Hexadecimal digits -/

open Sha256 (hexChar isHexLower_hexChar)

/-- The value of a lower-case digit. -/
def hexDigitValue (c : Char) : ℕ :=
  if c ≤ '9' then c.toNat - '0'.toNat else c.toNat - 'a'.toNat + 10

/-- The number that the digits stand for, the first digit the highest. -/
def hexNumber (ds : List Char) : ℕ := ds.foldl (fun n c => n * 16 + hexDigitValue c) 0

/-- The last `width` digits of a number. -/
def hexDigits : ℕ → ℕ → List Char
  | 0, _ => []
  | width + 1, n => hexDigits width (n / 16) ++ [hexChar n]

theorem hexDigitValue_hexChar (n : ℕ) : hexDigitValue (hexChar n) = n % 16 := by
  have h : ∀ m < 16, hexDigitValue (Nat.digitChar m) = m := by decide
  exact h _ (Nat.mod_lt _ (by decide))

theorem exists_hexChar {c : Char} (h : isHexLower c = true) : ∃ m < 16, c = Nat.digitChar m := by
  simp only [isHexLower, Bool.or_eq_true, Bool.and_eq_true, decide_eq_true_eq] at h
  have hdigit : ∀ n, (48 ≤ n ∧ n ≤ 57 ∨ 97 ≤ n ∧ n ≤ 102) → ∃ m < 16, n = (Nat.digitChar m).toNat := by
    intro n hn
    have hbound : n < 103 := by omega
    revert hn
    revert n
    decide
  obtain ⟨m, hm, hc⟩ := hdigit c.toNat h
  exact ⟨m, hm, Char.toNat_inj.mp hc⟩

theorem hexDigitValue_lt {c : Char} (h : isHexLower c = true) : hexDigitValue c < 16 := by
  obtain ⟨m, hm, rfl⟩ := exists_hexChar h
  have hvalue : ∀ m < 16, hexDigitValue (Nat.digitChar m) < 16 := by decide
  exact hvalue m hm

/-- A digit is the one of its value. -/
theorem hexChar_of_mod {c : Char} (h : isHexLower c = true) {n : ℕ} (hn : n % 16 = hexDigitValue c) :
    hexChar n = c := by
  obtain ⟨m, hm, rfl⟩ := exists_hexChar h
  have hvalue : ∀ m < 16, hexDigitValue (Nat.digitChar m) = m := by decide
  rw [hexChar, hn, hvalue m hm]

theorem hexNumber_concat (ds : List Char) (c : Char) :
    hexNumber (ds ++ [c]) = hexNumber ds * 16 + hexDigitValue c := by
  simp [hexNumber]

@[simp] theorem length_hexDigits (width n : ℕ) : (hexDigits width n).length = width := by
  induction width generalizing n with
  | zero => rfl
  | succ width ih => simp [hexDigits, ih]

theorem isHexLower_of_mem_hexDigits {width n : ℕ} {c : Char} (h : c ∈ hexDigits width n) :
    isHexLower c = true := by
  induction width generalizing n with
  | zero => cases h
  | succ width ih =>
    rw [hexDigits, List.mem_append, List.mem_singleton] at h
    rcases h with h | rfl
    · exact ih h
    · exact isHexLower_hexChar n

/-- **Digits of a number.**  They stand for it, when there are enough. -/
theorem hexNumber_hexDigits {width n : ℕ} (h : n < 16 ^ width) : hexNumber (hexDigits width n) = n := by
  induction width generalizing n with
  | zero =>
    obtain rfl : n = 0 := by simpa using h
    rfl
  | succ width ih =>
    have hhigh : n / 16 < 16 ^ width := by
      rw [Nat.div_lt_iff_lt_mul (by decide), ← Nat.pow_succ]
      exact h
    rw [hexDigits, hexNumber_concat, ih hhigh, hexDigitValue_hexChar, Nat.div_add_mod']

/-- **Number of digits.**  Lower-case digits are those of the number they stand for. -/
theorem hexDigits_hexNumber {ds : List Char} (h : ∀ c ∈ ds, isHexLower c = true) :
    hexDigits ds.length (hexNumber ds) = ds := by
  induction ds using List.reverseRecOn with
  | nil => rfl
  | append_singleton ds c ih =>
    rw [List.forall_mem_append, List.forall_mem_singleton] at h
    have hc := hexDigitValue_lt h.2
    have hhigh : (hexNumber ds * 16 + hexDigitValue c) / 16 = hexNumber ds := by omega
    rw [List.length_append, List.length_singleton, hexDigits, hexNumber_concat, hhigh, ih h.1]
    rw [hexChar_of_mod h.2 (by omega)]

theorem hexNumber_lt {ds : List Char} (h : ∀ c ∈ ds, isHexLower c = true) :
    hexNumber ds < 16 ^ ds.length := by
  induction ds using List.reverseRecOn with
  | nil => simp [hexNumber]
  | append_singleton ds c ih =>
    rw [List.forall_mem_append, List.forall_mem_singleton] at h
    have hc := hexDigitValue_lt h.2
    have hds := ih h.1
    rw [hexNumber_concat, List.length_append, List.length_singleton, Nat.pow_succ]
    omega

/-! ### Dashes -/

/-- The digits in groups of 8, 4, 4, 4 and 12. -/
def dashed (ds : List Char) : List Char :=
  ds.take 8 ++ '-' :: ((ds.drop 8).take 4 ++ '-' :: ((ds.drop 12).take 4 ++ '-' ::
    ((ds.drop 16).take 4 ++ '-' :: ds.drop 20)))

/-- `'%032x' % self.int`. -/
def UUID.hex (v : UUID) : List Char := v.text.toList.filter (· ≠ '-')

theorem isHexLower_dash : isHexLower '-' = false := by decide

theorem ne_dash {c : Char} (h : isHexLower c = true) : c ≠ '-' := by
  rintro rfl
  rw [isHexLower_dash] at h
  cases h

/-- One character at a dash's place and one at a digit's place of the canonical text. -/
def atPlace (p : Char × ℕ) : Bool :=
  if p.2 = 8 ∨ p.2 = 13 ∨ p.2 = 18 ∨ p.2 = 23 then p.1 == '-' else isHexLower p.1

theorem isCanonicalUuid_iff {s : String} :
    isCanonicalUuid s = true ↔ s.toList.length = 36 ∧ s.toList.zipIdx.all atPlace = true := by
  rw [isCanonicalUuid, Bool.and_eq_true, beq_iff_eq]
  rfl

/-- A group of digits, where no place is a dash's. -/
theorem all_atPlace {g : List Char} {k : ℕ} (hg : ∀ c ∈ g, isHexLower c = true)
    (hk : ∀ i < g.length, ¬(k + i = 8 ∨ k + i = 13 ∨ k + i = 18 ∨ k + i = 23)) :
    (g.zipIdx k).all atPlace = true := by
  rw [List.all_eq_true]
  rintro ⟨c, i⟩ hmem
  obtain ⟨hlow, hhigh, hc⟩ := List.mem_zipIdx hmem
  have hplace := hk (i - k) (by omega)
  rw [Nat.add_sub_cancel' hlow] at hplace
  rw [atPlace, if_neg hplace]
  exact hg c (hc ▸ List.getElem_mem _)

theorem canonical_dashed {ds : List Char} (hlength : ds.length = 32)
    (h : ∀ c ∈ ds, isHexLower c = true) : isCanonicalUuid (String.ofList (dashed ds)) = true := by
  have htake (k n : ℕ) : ∀ c ∈ (ds.drop k).take n, isHexLower c = true := fun c hc =>
    h c (List.mem_of_mem_drop (List.mem_of_mem_take hc))
  have hgroup (k n p : ℕ) (hp : ∀ i < min n (32 - k),
      ¬(p + i = 8 ∨ p + i = 13 ∨ p + i = 18 ∨ p + i = 23)) :
      (((ds.drop k).take n).zipIdx p).all atPlace = true := by
    refine all_atPlace (htake k n) fun i hi => hp i ?_
    simpa [hlength] using hi
  have hfirst := hgroup 0 8 0 (by decide)
  have hlast := all_atPlace (k := 24) (fun c hc => h c (List.mem_of_mem_drop (i := 20) hc)) (by
    intro i hi
    omega)
  rw [isCanonicalUuid_iff]
  refine ⟨by simp [dashed, hlength], ?_⟩
  rw [String.toList_ofList, dashed]
  simp only [List.zipIdx_append, List.zipIdx_cons, List.all_append, List.all_cons, Bool.and_eq_true]
  rw [List.drop_zero] at hfirst
  simp only [List.length_take, List.length_drop, hlength]
  exact ⟨hfirst, by decide, hgroup 8 4 9 (by decide), by decide, hgroup 12 4 14 (by decide), by decide,
    hgroup 16 4 19 (by decide), by decide, hlast⟩

theorem filter_digits {ds : List Char} (h : ∀ c ∈ ds, isHexLower c = true) :
    ds.filter (· ≠ '-') = ds :=
  List.filter_eq_self.mpr fun c hc => decide_eq_true (ne_dash (h c hc))

/-- Without the dashes, the digits are left. -/
theorem filter_dashed {ds : List Char} (h : ∀ c ∈ ds, isHexLower c = true) :
    (dashed ds).filter (· ≠ '-') = ds := by
  have hjoin (k n : ℕ) : (ds.drop k).take n ++ ds.drop (k + n) = ds.drop k := by
    rw [← List.drop_drop, List.take_append_drop]
  have hparts : (dashed ds).filter (· ≠ '-') = (ds.take 8 ++ ((ds.drop 8).take 4 ++ ((ds.drop 12).take 4
      ++ ((ds.drop 16).take 4 ++ ds.drop 20)))).filter (· ≠ '-') := by
    simp [dashed]
  rw [hparts, hjoin 16 4, hjoin 12 4, hjoin 8 4, List.take_append_drop, filter_digits h]

theorem dashed_groups {a b c d e : List Char} (ha : a.length = 8) (hb : b.length = 4)
    (hc : c.length = 4) (hd : d.length = 4) :
    dashed (a ++ (b ++ (c ++ (d ++ e)))) = a ++ '-' :: (b ++ '-' :: (c ++ '-' :: (d ++ '-' :: e))) := by
  have hdrop {l : List Char} {n : ℕ} (h : l.length ≤ n) : l.drop n = [] := List.drop_eq_nil_of_le h
  simp [dashed, List.drop_append, ha, hb, hc, hd, hdrop]

/-- The dashes of a canonical text are at their places, and all else are digits. -/
theorem exists_groups {cs : List Char} (hlength : cs.length = 36)
    (h : cs.zipIdx.all atPlace = true) :
    ∃ a b c d e : List Char, a.length = 8 ∧ b.length = 4 ∧ c.length = 4 ∧ d.length = 4 ∧ e.length = 12
      ∧ (∀ x ∈ a ++ (b ++ (c ++ (d ++ e))), isHexLower x = true)
      ∧ cs = a ++ '-' :: (b ++ '-' :: (c ++ '-' :: (d ++ '-' :: e))) := by
  have hplace (k : ℕ) (hk : k < cs.length) : atPlace (cs[k], k) = true :=
    List.all_eq_true.mp h _ (List.mk_mem_zipIdx_iff_getElem?.mpr (List.getElem?_eq_getElem hk))
  have hdash (k : ℕ) (hk : k = 8 ∨ k = 13 ∨ k = 18 ∨ k = 23) : cs.drop k = '-' :: cs.drop (k + 1) := by
    have hlt : k < cs.length := by omega
    have hchar : cs[k] = '-' := by
      have := hplace k hlt
      rwa [atPlace, if_pos hk, beq_iff_eq] at this
    rw [List.drop_eq_getElem_cons hlt, hchar]
  have hgroup (k n : ℕ) (hn : ∀ i < n, ¬(k + i = 8 ∨ k + i = 13 ∨ k + i = 18 ∨ k + i = 23))
      (hlow : k + n ≤ 36) : ∃ g : List Char, g.length = n ∧ (∀ x ∈ g, isHexLower x = true)
        ∧ cs.drop k = g ++ cs.drop (k + n) := by
    refine ⟨(cs.drop k).take n, ?_, ?_, ?_⟩
    · rw [List.length_take, List.length_drop, hlength]
      omega
    · intro x hx
      obtain ⟨i, hi, rfl⟩ := List.getElem_of_mem hx
      have hi' : i < n ∧ k + i < cs.length := by
        rw [List.length_take, List.length_drop] at hi
        omega
      have hchar := hplace (k + i) hi'.2
      rw [atPlace, if_neg (hn i hi'.1)] at hchar
      rw [List.getElem_take, List.getElem_drop]
      exact hchar
    · rw [← List.drop_drop, List.take_append_drop]
  obtain ⟨a, hla, ha, h0⟩ := hgroup 0 8 (by decide) (by decide)
  obtain ⟨b, hlb, hb, h9⟩ := hgroup 9 4 (by decide) (by decide)
  obtain ⟨c, hlc, hc, h14⟩ := hgroup 14 4 (by decide) (by decide)
  obtain ⟨d, hld, hd, h19⟩ := hgroup 19 4 (by decide) (by decide)
  obtain ⟨e, hle, he, h24⟩ := hgroup 24 12 (by decide) (by decide)
  refine ⟨a, b, c, d, e, hla, hlb, hlc, hld, hle, ?_, ?_⟩
  · simp only [List.forall_mem_append]
    exact ⟨ha, hb, hc, hd, he⟩
  · have hend : cs.drop (24 + 12) = [] := List.drop_eq_nil_of_le (le_of_eq hlength)
    calc cs = cs.drop 0 := rfl
      _ = a ++ '-' :: (b ++ '-' :: (c ++ '-' :: (d ++ '-' :: (e ++ cs.drop (24 + 12))))) := by
        rw [h0, hdash 8 (by decide), h9, hdash 13 (by decide), h14, hdash 18 (by decide), h19,
          hdash 23 (by decide), h24]
      _ = _ := by rw [hend, List.append_nil]

namespace UUID

/-- The text of a UUID is that of its digits, of which there are 32. -/
theorem text_eq_dashed (v : UUID) :
    v.text.toList = dashed v.hex ∧ v.hex.length = 32 ∧ ∀ c ∈ v.hex, isHexLower c = true := by
  obtain ⟨hlength, hall⟩ := isCanonicalUuid_iff.mp v.canonical
  obtain ⟨a, b, c, d, e, hla, hlb, hlc, hld, hle, hhex, htext⟩ := exists_groups hlength hall
  have hkept : v.hex = a ++ (b ++ (c ++ (d ++ e))) := by
    rw [hex, htext, ← dashed_groups hla hlb hlc hld, filter_dashed hhex]
  rw [hkept]
  refine ⟨?_, ?_, hhex⟩
  · rw [htext, dashed_groups hla hlb hlc hld]
  · simp [hla, hlb, hlc, hld, hle]

/-! ### Numbers -/

/-- `self.int`. -/
def int (v : UUID) : ℕ := hexNumber v.hex

/-- `uuid.UUID(int=n)`. -/
def ofInt (n : ℕ) : UUID where
  text := String.ofList (dashed (hexDigits 32 n))
  canonical := canonical_dashed (length_hexDigits 32 n) fun _ => isHexLower_of_mem_hexDigits

theorem text_ofInt (n : ℕ) : (ofInt n).text = String.ofList (dashed (hexDigits 32 n)) := rfl

@[simp] theorem ofInt_int (v : UUID) : ofInt v.int = v := by
  obtain ⟨htext, hlength, hhex⟩ := v.text_eq_dashed
  have hdigits : hexDigits 32 v.int = v.hex := by
    rw [← hlength]
    exact hexDigits_hexNumber hhex
  apply UUID.ext
  rw [text_ofInt, hdigits, ← htext, String.ofList_toList]

theorem int_lt (v : UUID) : v.int < 2 ^ 128 := by
  obtain ⟨-, hlength, hhex⟩ := v.text_eq_dashed
  have hlt := hexNumber_lt hhex
  have hbits : (16 : ℕ) ^ 32 = 2 ^ 128 := by decide
  rwa [hlength, hbits] at hlt

theorem hex_ofInt (n : ℕ) : (ofInt n).hex = hexDigits 32 n := by
  rw [hex, ofInt, String.toList_ofList]
  exact filter_dashed fun _ => isHexLower_of_mem_hexDigits

/-- **Numbers and UUIDs.**  128 bits are what a UUID holds. -/
theorem int_ofInt {n : ℕ} (h : n < 2 ^ 128) : (ofInt n).int = n := by
  have hbits : (16 : ℕ) ^ 32 = 2 ^ 128 := by decide
  rw [int, hex_ofInt, hexNumber_hexDigits]
  rwa [hbits]

/-- `self.bytes`. -/
def bytes (v : UUID) : Bytes := (List.range 16).map fun i => UInt8.ofNat (v.int / 256 ^ (15 - i))

/-- `self.variant == RFC_4122`: the two bits say which layout the UUID has. -/
def isRfc4122 (v : UUID) : Bool := v.int.testBit 63 && !v.int.testBit 62

/-- `self.version`, of that layout only. -/
def version (v : UUID) : Option ℕ := if v.isRfc4122 then some (v.int / 2 ^ 76 % 16) else none

/-- The version of a UUID, from the six bits that hold it. -/
theorem version_ofInt {n k : ℕ} (hn : n < 2 ^ 128) (hhigh : n.testBit 63 = true)
    (hlow : n.testBit 62 = false) (hk : k < 16)
    (hbits : ∀ i < 4, n.testBit (76 + i) = k.testBit i) : (ofInt n).version = some k := by
  have hnibble : n / 2 ^ 76 % 16 = k := by
    apply Nat.eq_of_testBit_eq
    intro i
    rw [show 16 = 2 ^ 4 from rfl, Nat.testBit_mod_two_pow, Nat.testBit_div_two_pow, Nat.add_comm i]
    rcases Nat.lt_or_ge i 4 with hi | hi
    · simp [hi, hbits i hi]
    · have hzero : k.testBit i = false :=
        Nat.testBit_lt_two_pow (lt_of_lt_of_le hk (Nat.pow_le_pow_right Nat.two_pos hi))
      simp [hzero, Nat.not_lt.mpr hi]
  rw [version, isRfc4122, int_ofInt hn, hhigh, hlow, hnibble]
  rfl

end UUID

/-! ### SHA-1 -/

namespace Sha1

open Sha256 (pad pieces wordOf wordHex)

/-- The five words of the chaining value. -/
structure State where
  a : UInt32
  b : UInt32
  c : UInt32
  d : UInt32
  e : UInt32

def initial : State where
  a := 0x67452301
  b := 0xefcdab89
  c := 0x98badcfe
  d := 0x10325476
  e := 0xc3d2e1f0

def rotl (x n : UInt32) : UInt32 := (x <<< n) ||| (x >>> (32 - n))

/-- The function and the constant of the four phases of twenty rounds. -/
def phase (t : ℕ) (b c d : UInt32) : UInt32 × UInt32 :=
  if t < 20 then ((b &&& c) ||| (~~~b &&& d), 0x5a827999)
  else if t < 40 then (b ^^^ c ^^^ d, 0x6ed9eba1)
  else if t < 60 then ((b &&& c) ||| (b &&& d) ||| (c &&& d), 0x8f1bbcdc)
  else (b ^^^ c ^^^ d, 0xca62c1d6)

def round (s : State) (t : ℕ) (w : UInt32) : State :=
  let (f, k) := phase t s.b s.c s.d
  { a := rotl s.a 5 + f + s.e + k + w, b := s.a, c := rotl s.b 30, d := s.c, e := s.d }

/-- The word that follows a window of sixteen in the message schedule. -/
def nextWord (window : List UInt32) : UInt32 :=
  rotl (window.getD 13 0 ^^^ window.getD 8 0 ^^^ window.getD 2 0 ^^^ window.getD 0 0) 1

/-- The rounds of one block, over a moving window of the message schedule. -/
def rounds : List ℕ → List UInt32 → State → State
  | [], _, s => s
  | t :: ts, window, s => rounds ts (window.tail ++ [nextWord window]) (round s t (window.getD 0 0))

def compress (s : State) (block : Bytes) : State :=
  let t := rounds (List.range 80) ((pieces 4 16 block).map wordOf) s
  { a := s.a + t.a, b := s.b + t.b, c := s.c + t.c, d := s.d + t.d, e := s.e + t.e }

def digest (b : Bytes) : State :=
  let padded := pad b
  (pieces 64 (padded.length / 64) padded).foldl compress initial

/-- The first sixteen of the twenty bytes, as a number. -/
def digest128 (b : Bytes) : ℕ :=
  let s := digest b
  ((s.a.toNat * 2 ^ 32 + s.b.toNat) * 2 ^ 32 + s.c.toNat) * 2 ^ 32 + s.d.toNat

end Sha1

/-! ### Names -/

/-- The bits of a UUID that hold its layout and its version are cleared and set. -/
def withVersion (n version : ℕ) : ℕ :=
  let layout := (n &&& (2 ^ 128 - 1 - 0xc000 * 2 ^ 48)) ||| 0x8000 * 2 ^ 48
  (layout &&& (2 ^ 128 - 1 - 0xf000 * 2 ^ 64)) ||| version * 2 ^ 76

/-- The bits are those of the layout and the version. -/
theorem version_withVersion {n version : ℕ} (h : version < 16) :
    (UUID.ofInt (withVersion n version)).version = some version := by
  have hshifted : ∀ k < 16, k * 2 ^ 76 < 2 ^ 128 ∧ Nat.testBit (k * 2 ^ 76) 62 = false
      ∧ ∀ i < 4, Nat.testBit (k * 2 ^ 76) (76 + i) = Nat.testBit k i := by
    decide
  obtain ⟨hbound, hlow, hset⟩ := hshifted version h
  apply UUID.version_ofInt
  · exact Nat.or_lt_two_pow (Nat.lt_of_le_of_lt Nat.and_le_right (by decide)) hbound
  · simp only [withVersion, Nat.testBit_or, Nat.testBit_and]
    rw [show Nat.testBit (0x8000 * 2 ^ 48) 63 = true by decide,
      show Nat.testBit (2 ^ 128 - 1 - 0xf000 * 2 ^ 64) 63 = true by decide]
    simp
  · simp only [withVersion, Nat.testBit_or, Nat.testBit_and]
    rw [show Nat.testBit (2 ^ 128 - 1 - 0xc000 * 2 ^ 48) 62 = false by decide,
      show Nat.testBit (0x8000 * 2 ^ 48) 62 = false by decide, hlow]
    simp
  · exact h
  · intro i hi
    have hmask : ∀ i < 4, Nat.testBit (2 ^ 128 - 1 - 0xf000 * 2 ^ 64) (76 + i) = false := by decide
    simp only [withVersion, Nat.testBit_or, Nat.testBit_and]
    rw [hmask i hi, hset i hi]
    simp

/-- `uuid.uuid4`, from the bytes the system draws. -/
def uuid4 (drawn : Fin (2 ^ 128)) : UUID := .ofInt (withVersion drawn 4)

/-- `uuid.uuid5`. -/
def uuid5 (space : UUID) (name : List Char) : UUID :=
  .ofInt (withVersion (Sha1.digest128 (space.bytes ++ utf8 name)) 5)

theorem version_uuid4 (drawn : Fin (2 ^ 128)) : (uuid4 drawn).version = some 4 :=
  version_withVersion (by decide)

/-- A name-based UUID says so. -/
theorem version_uuid5 (space : UUID) (name : List Char) : (uuid5 space name).version = some 5 :=
  version_withVersion (by decide)

/-- `uuid.NAMESPACE_URL`. -/
def urlSpace : UUID := ⟨"6ba7b811-9dad-11d1-80b4-00c04fd430c8", by decide⟩

end Agora
