import Agora.Lib.Uuid
import Mathlib.Data.List.DropRight
import Mathlib.Data.List.TakeWhile

namespace Agora

/-!
# Reading hexadecimal text

`int(text, 16)` and `uuid.UUID(hex=text)`.  Both read more than digits: spaces around them, a sign, a
base, single underscores, and the decimal digits of any script; a UUID may be braced, dashed or a URN.
Thirty-two lower-case digits are read as what they are (`UUID.ofHexText_digits`).
-/

/-- The zeros of the scripts of Unicode; the other nine digits follow each. -/
def decimalZeros : List ℕ :=
  [0x30, 0x660, 0x6f0, 0x7c0, 0x966, 0x9e6, 0xa66, 0xae6, 0xb66, 0xbe6, 0xc66, 0xce6, 0xd66, 0xde6,
   0xe50, 0xed0, 0xf20, 0x1040, 0x1090, 0x17e0, 0x1810, 0x1946, 0x19d0, 0x1a80, 0x1a90, 0x1b50, 0x1bb0,
   0x1c40, 0x1c50, 0xa620, 0xa8d0, 0xa900, 0xa9d0, 0xa9f0, 0xaa50, 0xabf0, 0xff10, 0x104a0, 0x10d30,
   0x11066, 0x110f0, 0x11136, 0x111d0, 0x112f0, 0x11450, 0x114d0, 0x11650, 0x116c0, 0x11730, 0x118e0,
   0x11950, 0x11c50, 0x11d50, 0x11da0, 0x11f50, 0x16a60, 0x16ac0, 0x16b50, 0x1d7ce, 0x1d7d8, 0x1d7e2,
   0x1d7ec, 0x1d7f6, 0x1e140, 0x1e2f0, 0x1e4f0, 0x1e950, 0x1fbf0]

/-- A space, a digit or `?` for what is not ASCII. -/
def asciiChar (c : Char) : Char :=
  if c.toNat < 127 then c
  else if isSpace c then ' '
  else match decimalZeros.find? fun n => n ≤ c.toNat ∧ c.toNat < n + 10 with
    | some n => Nat.digitChar (c.toNat - n)
    | none => '?'

def isAsciiSpace (c : Char) : Bool := c = ' ' || 0x09 ≤ c.toNat && c.toNat ≤ 0x0D

/-- Without `0x`, after which one underscore may stand. -/
def withoutBase : List Char → List Char
  | '0' :: x :: '_' :: rest => if x = 'x' ∨ x = 'X' then rest else '0' :: x :: '_' :: rest
  | '0' :: x :: rest => if x = 'x' ∨ x = 'X' then rest else '0' :: x :: rest
  | cs => cs

/-- Digits of either case, with single underscores between them. -/
def digitGroups (cs : List Char) : Option ℕ :=
  if (cs.splitOn '_').all fun g => !g.isEmpty && g.all (isHexLower ·.toLower) then
    some (hexNumber ((cs.filter (· ≠ '_')).map Char.toLower))
  else none

/-- `int(text, 16)`, where it does not raise. -/
def intBase16 (text : List Char) : Option ℤ :=
  match ((text.map asciiChar).dropWhile isAsciiSpace).rdropWhile isAsciiSpace with
  | '-' :: rest => (digitGroups (withoutBase rest)).map fun n => -Int.ofNat n
  | '+' :: rest => (digitGroups (withoutBase rest)).map Int.ofNat
  | rest => (digitGroups (withoutBase rest)).map Int.ofNat

/-- `text.replace(word, '')`, from the left; the counter is what is left of a word that was found. -/
def removeWord (word : List Char) : ℕ → List Char → List Char
  | _, [] => []
  | rest + 1, _ :: cs => removeWord word rest cs
  | 0, c :: cs =>
    if word.isPrefixOf (c :: cs) then removeWord word (word.length - 1) cs else c :: removeWord word 0 cs

def isBrace (c : Char) : Bool := c.toNat = 0x7B || c.toNat = 0x7D

/-- `uuid.UUID(hex=text)`. -/
def UUID.ofHexText (text : List Char) : Py UUID :=
  let plain := removeWord "uuid:".toList 0 (removeWord "urn:".toList 0 text)
  let digits := ((plain.dropWhile isBrace).rdropWhile isBrace).filter (· ≠ '-')
  if digits.length ≠ 32 then .error (.valueError "badly formed hexadecimal UUID string")
  else match intBase16 digits with
    | none => .error (.valueError ("invalid literal for int() with base 16: '" ++ String.ofList digits
        ++ "'"))
    | some n =>
      if 0 ≤ n ∧ n < 2 ^ 128 then .ok (.ofInt n.toNat)
      else .error (.valueError "int is out of range (need a 128-bit value)")

/-! ### Digits alone -/

/-- A word is not in a text that lacks one of its characters. -/
theorem removeWord_eq_self {word cs : List Char} {x : Char} (hx : x ∈ word) (h : x ∉ cs) :
    removeWord word 0 cs = cs := by
  induction cs with
  | nil => rfl
  | cons c cs ih =>
    have hword : word.isPrefixOf (c :: cs) = false := by
      rw [Bool.eq_false_iff]
      intro hpre
      exact h ((List.isPrefixOf_iff_prefix.mp hpre).subset hx)
    rw [removeWord, hword, ih fun hc => h (List.mem_cons_of_mem c hc)]
    rfl

theorem dropWhile_eq_self {p : Char → Bool} {cs : List Char} (h : ∀ c ∈ cs, p c = false) :
    cs.dropWhile p = cs ∧ cs.rdropWhile p = cs := by
  constructor
  · apply List.dropWhile_eq_self_iff.mpr
    intro hcs
    simp [h _ (List.getElem_mem hcs)]
  · apply List.rdropWhile_eq_self_iff.mpr
    intro hcs
    simp [h _ (List.getLast_mem hcs)]

/-- What holds of the sixteen digits holds of every digit. -/
theorem forall_digit {p : Char → Prop} (hp : ∀ m < 16, p (Nat.digitChar m)) {c : Char}
    (hc : isHexLower c = true) : p c := by
  obtain ⟨m, hm, rfl⟩ := exists_hexChar hc
  exact hp m hm

section Digits

variable {ds : List Char} (h : ∀ c ∈ ds, isHexLower c = true)

include h

theorem map_digits {f : Char → Char} (hf : ∀ m < 16, f (Nat.digitChar m) = Nat.digitChar m) :
    ds.map f = ds := by
  conv_rhs => rw [← List.map_id ds]
  exact List.map_congr_left fun c hc => forall_digit (p := fun c => f c = id c) hf (h c hc)

theorem digitGroups_digits (hne : ds ≠ []) : digitGroups ds = some (hexNumber ds) := by
  have hlower : ∀ m < 16, (Nat.digitChar m).toLower = Nat.digitChar m := by decide
  have hsplit : ds.splitOn '_' = [ds] := by
    apply List.splitOnP_eq_singleton
    intro c hc
    exact forall_digit (p := fun c => (c == '_') = false) (by decide) (h c hc)
  have hkept : ds.filter (· ≠ '_') = ds := by
    apply List.filter_eq_self.mpr
    intro c hc
    exact forall_digit (p := fun c => decide (c ≠ '_') = true) (by decide) (h c hc)
  have hall : ds.all (isHexLower ·.toLower) = true := by
    apply List.all_eq_true.mpr
    intro c hc
    exact forall_digit (p := fun c => isHexLower c.toLower = true) (by decide) (h c hc)
  rw [digitGroups, hsplit, hkept, map_digits h hlower, if_pos]
  simp [hall, hne]

/-- Digits have no base before them. -/
theorem withoutBase_digits : withoutBase ds = ds := by
  match ds, h with
  | [], _ => rfl
  | [c], _ =>
    unfold withoutBase
    split <;> simp_all
  | c :: x :: rest, h =>
    have hx : ¬(x = 'x' ∨ x = 'X') :=
      forall_digit (p := fun c => ¬(c = 'x' ∨ c = 'X')) (by decide) (h x (by simp))
    unfold withoutBase
    split <;> simp_all

theorem intBase16_digits (hne : ds ≠ []) : intBase16 ds = some (hexNumber ds : ℤ) := by
  have hspace := dropWhile_eq_self (p := isAsciiSpace) fun c hc =>
    forall_digit (p := fun c => isAsciiSpace c = false) (by decide) (h c hc)
  have hsign : ∀ c ∈ ds.head?, c ≠ '-' ∧ c ≠ '+' := fun c hc =>
    forall_digit (p := fun c => c ≠ '-' ∧ c ≠ '+') (by decide) (h c (List.mem_of_mem_head? hc))
  rw [intBase16, map_digits h (by decide), hspace.1, hspace.2]
  split
  case h_1 => exact absurd rfl (hsign '-' rfl).1
  case h_2 => exact absurd rfl (hsign '+' rfl).2
  case h_3 => rw [withoutBase_digits h, digitGroups_digits h hne, Option.map_some, Int.ofNat_eq_natCast]

/-- What the digits are of, whatever stands between them. -/
theorem UUID.ofHexText_eq {text : List Char} (hcolon : ':' ∉ text)
    (hbrace : ∀ c ∈ text, isBrace c = false) (hkept : text.filter (· ≠ '-') = ds)
    (hlength : ds.length = 32) : UUID.ofHexText text = .ok (.ofInt (hexNumber ds)) := by
  have htrim := dropWhile_eq_self hbrace
  have hne : ds ≠ [] := by
    rintro rfl
    cases hlength
  have hbound : hexNumber ds < 2 ^ 128 := by
    have hlt := hexNumber_lt h
    have hbits : (16 : ℕ) ^ 32 = 2 ^ 128 := by decide
    rwa [hlength, hbits] at hlt
  unfold UUID.ofHexText
  simp only
  rw [removeWord_eq_self (x := ':') (by decide) hcolon,
    removeWord_eq_self (x := ':') (by decide) hcolon, htrim.1, htrim.2, hkept,
    if_neg (not_not_intro hlength), intBase16_digits h hne]
  simp only
  rw [if_pos ⟨Int.natCast_nonneg _, by exact_mod_cast hbound⟩, Int.toNat_natCast]

/-- **Digits.**  Thirty-two lower-case digits are read as the UUID they are the digits of. -/
theorem UUID.ofHexText_digits (hlength : ds.length = 32) :
    UUID.ofHexText ds = .ok (.ofInt (hexNumber ds)) := by
  apply UUID.ofHexText_eq h _ _ (filter_digits h) hlength
  · intro hc
    have hfalse : isHexLower ':' = false := by decide
    rw [h ':' hc] at hfalse
    cases hfalse
  · intro c hc
    exact forall_digit (p := fun c => isBrace c = false) (by decide) (h c hc)

end Digits

/-- **Texts.**  The text of a UUID is read as that UUID. -/
theorem UUID.ofHexText_text (v : UUID) : UUID.ofHexText v.text.toList = .ok v := by
  obtain ⟨-, hlength, hhex⟩ := v.text_eq_dashed
  have hchars : ∀ c ∈ v.text.toList, c ≠ ':' ∧ isBrace c = false := by
    intro c hc
    by_cases hdash : c = '-'
    · rw [hdash]
      decide
    · have hdigit : c ∈ v.hex := List.mem_filter.mpr ⟨hc, decide_eq_true hdash⟩
      exact forall_digit (p := fun c => c ≠ ':' ∧ isBrace c = false) (by decide) (hhex c hdigit)
  have hread := UUID.ofHexText_eq hhex (fun hc => (hchars ':' hc).1 rfl)
    (fun c hc => (hchars c hc).2) rfl hlength
  rwa [← UUID.int, UUID.ofInt_int] at hread

end Agora
