import Agora.Lib.Python

namespace Agora

/-!
# Byte strings

UTF-8 and `bytes.splitlines(keepends=True)`.  A text of characters from U+0020 on is encoded
without line breaks (`lineBreakFree_utf8`), so lines that end in a line feed split back into
themselves (`splitLines_join`).
-/

/-- A `bytes` value. -/
abbrev Bytes := List UInt8

/-! ### UTF-8 -/

/-- `text.encode()`. -/
def utf8 (cs : List Char) : Bytes := cs.flatMap String.utf8EncodeChar

/-- `data.decode("utf-8")`, `none` where it raises `UnicodeDecodeError`. -/
def decodeUtf8 (b : Bytes) : Option (List Char) := b.toByteArray.utf8Decode?.map Array.toList

@[simp] theorem utf8_append (cs ds : List Char) : utf8 (cs ++ ds) = utf8 cs ++ utf8 ds :=
  List.flatMap_append

theorem decodeUtf8_utf8 (cs : List Char) : decodeUtf8 (utf8 cs) = some cs := by
  have h : cs.utf8Encode.utf8Decode? = some cs.toArray := List.utf8Decode?_utf8Encode
  rw [List.utf8Encode] at h
  rw [decodeUtf8, utf8, h]
  rfl

/-- What was decoded is encoded as the same bytes. -/
theorem utf8_of_decodeUtf8 {b : Bytes} {cs : List Char} (h : decodeUtf8 b = some cs) : utf8 cs = b := by
  obtain ⟨chars, hchars, rfl⟩ := Option.map_eq_some_iff.mp h
  have hsome : b.toByteArray.utf8Decode?.isSome = true := by
    rw [hchars]
    rfl
  have hencode := ByteArray.utf8Encode_get_utf8Decode? (b := b.toByteArray) (h := hsome)
  simp only [hchars, Option.get_some, List.utf8Encode] at hencode
  have hdata := congrArg (fun bytes => bytes.data.toList) hencode
  simpa [utf8] using hdata

theorem utf8_injective : Function.Injective utf8 := by
  intro cs ds h
  have hdecode := decodeUtf8_utf8 cs
  rw [h, decodeUtf8_utf8] at hdecode
  exact (Option.some.inj hdecode).symm

/-- The bytes of a character from U+0020 on are at least 0x20. -/
theorem le_of_mem_utf8EncodeChar {c : Char} (h : 0x20 ≤ c.toNat) {x : UInt8}
    (hx : x ∈ String.utf8EncodeChar c) : 0x20 ≤ x.toNat := by
  have hc : c.toNat < 0x110000 := by
    rcases c.valid with hlow | hhigh
    · exact Nat.lt_trans hlow (by decide)
    · exact hhigh.2
  have hof (n : ℕ) (hlow : 0x20 ≤ n) (hhigh : n < 256) : 0x20 ≤ (UInt8.ofNat n).toNat := by
    simpa [Nat.mod_eq_of_lt hhigh] using hlow
  unfold String.utf8EncodeChar at hx
  change 0x20 ≤ c.val.toNat at h
  change c.val.toNat < 0x110000 at hc
  simp only at hx
  -- One to four bytes; a byte after the first is at least 0x80.
  split_ifs at hx <;> simp only [List.mem_cons, List.not_mem_nil, or_false] at hx
  · subst hx
    exact hof _ h (by omega)
  · rcases hx with rfl | rfl <;> exact hof _ (by omega) (by omega)
  · rcases hx with rfl | rfl | rfl <;> exact hof _ (by omega) (by omega)
  · rcases hx with rfl | rfl | rfl | rfl <;> exact hof _ (by omega) (by omega)

theorem le_of_mem_utf8 {cs : List Char} (h : ∀ c ∈ cs, 0x20 ≤ c.toNat) {x : UInt8}
    (hx : x ∈ utf8 cs) : 0x20 ≤ x.toNat := by
  obtain ⟨c, hc, hx⟩ := List.mem_flatMap.mp hx
  exact le_of_mem_utf8EncodeChar (h c hc) hx

/-! ### Lines -/

/-- No line feed and no carriage return. -/
def LineBreakFree (b : Bytes) : Prop := ∀ x ∈ b, x ≠ 10 ∧ x ≠ 13

theorem lineBreakFree_utf8 {cs : List Char} (h : ∀ c ∈ cs, 0x20 ≤ c.toNat) :
    LineBreakFree (utf8 cs) := by
  intro x hx
  have hle := le_of_mem_utf8 h hx
  constructor <;> (rintro rfl; simp at hle)

/-- `data.splitlines(keepends=True)`: lines end in a line feed, a carriage return or both. -/
def splitLines : Bytes → List Bytes
  | [] => []
  | 13 :: 10 :: rest => [13, 10] :: splitLines rest
  | b :: rest =>
    if b = 10 ∨ b = 13 then [b] :: splitLines rest
    else
      match splitLines rest with
      | [] => [[b]]
      | line :: lines => (b :: line) :: lines

/-- A line without line breaks and its line feed are the first line. -/
theorem splitLines_line {line : Bytes} (h : LineBreakFree line) (rest : Bytes) :
    splitLines (line ++ 10 :: rest) = (line ++ [10]) :: splitLines rest := by
  induction line with
  | nil => simp [splitLines]
  | cons b line ih =>
    have hb := h b List.mem_cons_self
    have hline : LineBreakFree line := fun x hx => h x (List.mem_cons_of_mem _ hx)
    rw [List.cons_append, splitLines.eq_3 _ _ (by rintro rest' rfl; exact absurd rfl hb.2),
      if_neg (not_or.mpr hb), ih hline]
    rfl

/-- Lines that end in a line feed split back into themselves. -/
theorem splitLines_join {lines : List Bytes} (h : ∀ line ∈ lines, LineBreakFree line) :
    splitLines (lines.flatMap (· ++ [10])) = lines.map (· ++ [10]) := by
  induction lines with
  | nil => rfl
  | cons line lines ih =>
    rw [List.flatMap_cons, List.append_assoc, List.singleton_append,
      splitLines_line (h line List.mem_cons_self),
      ih fun l hl => h l (List.mem_cons_of_mem _ hl), List.map_cons]

end Agora
