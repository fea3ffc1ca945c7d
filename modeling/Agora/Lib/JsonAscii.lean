import Agora.Lib.JsonOrder

namespace Agora

/-!
# JSON text in ASCII

`json.dumps` with `separators=(",", ":")`: what is not a printable ASCII character is escaped, the
characters beyond the basic plane as two halves, and the keys stay where they are.  The text is read
back as the value (`readAs_dumps`) and has no control characters (`printable_dumps`).
-/

namespace Json

/-! ### Writing -/

/-- `\uXXXX`. -/
def hexEscape (n : ℕ) : List Char :=
  ['\\', 'u', hexDigit (n / 0x1000), hexDigit (n / 0x100), hexDigit (n / 0x10), hexDigit n]

/-- The halves of a character beyond the basic plane. -/
def highHalf (n : ℕ) : ℕ := 0xD800 + (n - 0x10000) / 0x400

def lowHalf (n : ℕ) : ℕ := 0xDC00 + (n - 0x10000) % 0x400

def asciiPoint : CodePoint → List Char
  | .surrogate n => hexEscape (0xD800 + n.val)
  | .scalar c =>
    if c.toNat ≤ 0x7E then escapeChar c
    else if c.toNat < 0x10000 then hexEscape c.toNat
    else hexEscape (highHalf c.toNat) ++ hexEscape (lowHalf c.toNat)

mutual
/-- `json.dumps(value, separators=(",", ":"))`, of a value without floats. -/
def dumps : Json → List Char
  | .null => ['n', 'u', 'l', 'l']
  | .bool true => ['t', 'r', 'u', 'e']
  | .bool false => ['f', 'a', 'l', 's', 'e']
  | .int n => intText n
  | .float _ _ => []
  | .str s => '"' :: (s.flatMap asciiPoint ++ ['"'])
  | .arr items => '[' :: (joinComma (dumpsItems items) ++ [']'])
  | .obj entries => '{' :: (joinComma (dumpsEntries entries) ++ ['}'])
def dumpsItems : List Json → List (List Char)
  | [] => []
  | j :: items => dumps j :: dumpsItems items
def dumpsEntries : List (PyStr × Json) → List (List Char)
  | [] => []
  | (k, v) :: entries =>
    ('"' :: (k.flatMap asciiPoint ++ '"' :: ':' :: dumps v)) :: dumpsEntries entries
end

/-! ### Strings -/

theorem hexValue_hexDigit (n : ℕ) : hexValue (hexDigit n) = some (n % 16) := by
  have hall : ∀ m < 16, hexValue (Nat.digitChar m) = some m := by decide
  exact hall _ (Nat.mod_lt _ (by decide))

/-- The code point of an escape. -/
def pointOf (n : ℕ) : CodePoint :=
  if h : 0xD800 ≤ n ∧ n < 0xE000 then .surrogate ⟨n - 0xD800, by omega⟩ else .scalar (Char.ofNat n)

theorem hexPoint_digits {n : ℕ} (hn : n < 0x10000) :
    hexPoint (hexDigit (n / 0x1000)) (hexDigit (n / 0x100)) (hexDigit (n / 0x10)) (hexDigit n)
      = some (pointOf n) := by
  have hvalue : ((n / 0x1000 % 16 * 16 + n / 0x100 % 16) * 16 + n / 0x10 % 16) * 16 + n % 16
      = n := by
    omega
  unfold hexPoint
  simp only [hexValue_hexDigit, Option.bind_eq_bind, Option.bind_some, hvalue]
  unfold pointOf
  split_ifs <;> rfl

/-- Code points in front of what has been read. -/
def prepend (ps : PyStr) (r : PyStr × List Char) : PyStr × List Char := (ps ++ r.1, r.2)

theorem unescape_hexEscape {n : ℕ} (hn : n < 0x10000) (cs : List Char) :
    unescape (hexEscape n ++ cs) = (unescape cs).map (prepend [pointOf n]) := by
  simp only [hexEscape, List.cons_append, List.nil_append, unescape, hexPoint_digits hn]
  cases unescape cs with
  | error e => rfl
  | ok r => rfl

/-- What an escaped code point is read as, before halves are joined. -/
def spread : CodePoint → PyStr
  | .surrogate n => [.surrogate n]
  | .scalar c =>
    if c.toNat < 0x10000 then [.scalar c]
    else [pointOf (highHalf c.toNat), pointOf (lowHalf c.toNat)]

theorem pointOf_toNat (c : Char) : pointOf c.toNat = .scalar c := by
  have hvalid := toNat_char c
  unfold pointOf
  rw [dif_neg (by omega), Char.ofNat_toNat]

theorem pointOf_surrogate {k : ℕ} (hk : k < 0x800) : pointOf (0xD800 + k) = .surrogate ⟨k, hk⟩ := by
  unfold pointOf
  rw [dif_pos (by omega)]
  simp only [Nat.add_sub_cancel_left]

theorem halves_lt (c : Char) : highHalf c.toNat < 0x10000 ∧ lowHalf c.toNat < 0x10000 := by
  have hvalid := toNat_char c
  unfold highHalf lowHalf
  omega

theorem unescape_asciiPoint (p : CodePoint) (cs : List Char) :
    unescape (asciiPoint p ++ cs) = (unescape cs).map (prepend (spread p)) := by
  cases p with
  | surrogate n =>
    rw [asciiPoint, unescape_hexEscape (by omega), pointOf_surrogate n.isLt, spread]
  | scalar c =>
    rw [asciiPoint, spread]
    by_cases hascii : c.toNat ≤ 0x7E
    · rw [if_pos hascii, if_pos (by omega), unescape_escapeChar]
      cases unescape cs with
      | error e => rfl
      | ok r => rfl
    · rw [if_neg hascii]
      by_cases hplane : c.toNat < 0x10000
      · rw [if_pos hplane, if_pos hplane, unescape_hexEscape hplane, pointOf_toNat]
      · obtain ⟨hhigh, hlow⟩ := halves_lt c
        rw [if_neg hplane, if_neg hplane, List.append_assoc, unescape_hexEscape hhigh,
          unescape_hexEscape hlow]
        cases unescape cs with
        | error e => rfl
        | ok r => rfl

theorem unescape_points (s : PyStr) (rest : List Char) :
    unescape (s.flatMap asciiPoint ++ '"' :: rest) = .ok (s.flatMap spread, rest) := by
  induction s with
  | nil => simp [unescape]
  | cons p s ih =>
    rw [List.flatMap_cons, List.append_assoc, unescape_asciiPoint, ih]
    rfl

/-- The halves of a character are joined again. -/
theorem joinSurrogates_spread (cs : List Char) :
    joinSurrogates ((PyStr.ofChars cs).flatMap spread) = PyStr.ofChars cs := by
  induction cs with
  | nil => rfl
  | cons c cs ih =>
    show joinSurrogates (spread (.scalar c) ++ (PyStr.ofChars cs).flatMap spread)
      = .scalar c :: PyStr.ofChars cs
    rw [spread]
    split_ifs with hplane
    · rw [List.singleton_append, joinSurrogates, ih]
      simp
    · have hvalid := toNat_char c
      have hhigh : pointOf (highHalf c.toNat)
          = .surrogate ⟨(c.toNat - 0x10000) / 0x400, by omega⟩ := pointOf_surrogate _
      have hlow : pointOf (lowHalf c.toNat)
          = .surrogate ⟨0x400 + (c.toNat - 0x10000) % 0x400, by omega⟩ := by
        rw [← pointOf_surrogate, lowHalf, ← Nat.add_assoc]
      have hjoined : 0x10000 + (c.toNat - 0x10000) / 0x400 * 0x400
          + (0x400 + (c.toNat - 0x10000) % 0x400 - 0x400) = c.toNat := by
        omega
      rw [hhigh, hlow, List.cons_append, List.singleton_append, joinSurrogates,
        if_pos (by constructor <;> dsimp only <;> omega), ih]
      dsimp only
      rw [hjoined, Char.ofNat_toNat]

/-- **Strings.**  Escaped in ASCII they are read as they were. -/
theorem parseString_ascii {s : PyStr} (h : isScalar s = true) (rest : List Char) :
    parseString (s.flatMap asciiPoint ++ '"' :: rest) = .ok (s, rest) := by
  obtain ⟨cs, rfl⟩ := exists_chars_of_isScalar h
  rw [parseString, unescape_points, Except.ok_bind]
  exact congrArg (fun s => Except.ok (s, rest)) (joinSurrogates_spread cs)

/-! ### Values -/

theorem dumpsItems_eq_map (items : List Json) : dumpsItems items = items.map dumps := by
  induction items with
  | nil => rfl
  | cons j items ih => rw [dumpsItems, ih, List.map_cons]

/-- A member of a text in ASCII. -/
def asciiMember (e : PyStr × Json) : Member := ⟨e.1.flatMap asciiPoint, e.1, e.2.dumps, e.2⟩

theorem dumpsEntries_eq_map (entries : List (PyStr × Json)) :
    dumpsEntries entries = (entries.map asciiMember).map Member.full := by
  induction entries with
  | nil => rfl
  | cons e entries ih =>
    rw [dumpsEntries, ih]
    rfl

mutual
/-- **Values.**  The text of a value is read as the value. -/
theorem readAs_dumps : ∀ j : Json, j.encodable = true → ReadAs j.dumps j.depth j
  | .null, _ | .bool true, _ | .bool false, _ => by
    apply readAs_scalar ⟨_, _, rfl, by unfold Opens; decide⟩
    intro rest _
    rfl
  | .int _, h => readAs_int h
  | .str _, h => readAs_str (parseString_ascii h)
  | .arr items, h => by
    have hitems := readAs_dumpsItems items h
    have hread : ∀ e ∈ items.map fun j => (j.dumps, j), ReadAs e.1 (depthItems items) e.2 := by
      intro e he
      obtain ⟨j, hj, rfl⟩ := List.mem_map.mp he
      exact (hitems j hj).mono (depthItems_le le_rfl j hj)
    have harr := readAs_arr hread
    rw [List.map_map, List.map_map] at harr
    have hvalues : items.map (Prod.snd ∘ fun j => (j.dumps, j)) = items := List.map_id items
    rw [hvalues] at harr
    rw [dumps, dumpsItems_eq_map]
    exact harr
  | .obj entries, h => by
    have hentries := readAs_dumpsEntries entries h
    have hread : ∀ m ∈ entries.map asciiMember, m.ReadsIn (depthEntries entries) := by
      intro m hm
      obtain ⟨e, he, rfl⟩ := List.mem_map.mp hm
      exact ⟨(hentries e he).key, (hentries e he).value.mono (depthEntries_le le_rfl e he)⟩
    have hobj := readAs_obj hread
    rw [← dumpsEntries_eq_map, List.map_map] at hobj
    have hvalues : entries.map ((fun m => (m.key, m.value)) ∘ asciiMember) = entries :=
      List.map_id entries
    rw [hvalues] at hobj
    exact hobj
theorem readAs_dumpsItems : ∀ items : List Json, encodableItems items = true →
    ∀ j ∈ items, ReadAs j.dumps j.depth j
  | [], _ => by simp
  | j :: items, h => by
    rw [encodableItems, Bool.and_eq_true] at h
    exact List.forall_mem_cons.mpr ⟨readAs_dumps j h.1, readAs_dumpsItems items h.2⟩
theorem readAs_dumpsEntries : ∀ entries : List (PyStr × Json), encodableEntries entries = true →
    ∀ e ∈ entries, (asciiMember e).ReadsIn e.2.depth
  | [], _ => by simp
  | (k, v) :: entries, h => by
    rw [encodableEntries, Bool.and_eq_true, Bool.and_eq_true] at h
    exact List.forall_mem_cons.mpr
      ⟨⟨parseString_ascii h.1.1, readAs_dumps v h.1.2⟩, readAs_dumpsEntries entries h.2⟩
end

/-! ### Depth -/

theorem le_length_joinComma (t : List Char) (ts : List (List Char)) :
    max t.length (joinComma ts).length ≤ (joinComma (t :: ts)).length := by
  cases ts with
  | nil => simp [joinComma]
  | cons u ts =>
    rw [joinComma, List.length_append, List.length_cons]
    omega

mutual
/-- A text has at least as many characters as levels. -/
theorem depth_le_length : ∀ j : Json, j.depth ≤ j.dumps.length
  | .null | .bool _ | .int _ | .float _ _ | .str _ => Nat.zero_le _
  | .arr items => by
    rw [depth, dumps, List.length_cons, List.length_append]
    have hle := depthItems_le_length items
    omega
  | .obj entries => by
    rw [depth, dumps, List.length_cons, List.length_append]
    have hle := depthEntries_le_length entries
    omega
theorem depthItems_le_length : ∀ items : List Json,
    depthItems items ≤ (joinComma (dumpsItems items)).length
  | [] => Nat.zero_le _
  | j :: items => by
    rw [depthItems, dumpsItems]
    exact (max_le_max (depth_le_length j) (depthItems_le_length items)).trans
      (le_length_joinComma _ _)
theorem depthEntries_le_length : ∀ entries : List (PyStr × Json),
    depthEntries entries ≤ (joinComma (dumpsEntries entries)).length
  | [] => Nat.zero_le _
  | (k, v) :: entries => by
    rw [depthEntries, dumpsEntries]
    have hmember : v.dumps.length
        ≤ ('"' :: (k.flatMap asciiPoint ++ '"' :: ':' :: v.dumps)).length := by
      simp only [List.length_cons, List.length_append]
      omega
    exact (max_le_max ((depth_le_length v).trans hmember)
      (depthEntries_le_length entries)).trans (le_length_joinComma _ _)
end

/-! ### Characters -/

/-- A printable ASCII character. -/
def IsPrintableAscii (c : Char) : Prop := 0x20 ≤ c.toNat ∧ c.toNat ≤ 0x7E

instance (c : Char) : Decidable (IsPrintableAscii c) :=
  inferInstanceAs (Decidable (0x20 ≤ c.toNat ∧ c.toNat ≤ 0x7E))

theorem printable_of_all {cs : List Char} (h : (cs.all fun c => decide (IsPrintableAscii c)) = true) :
    ∀ c ∈ cs, IsPrintableAscii c := by
  intro c hc
  exact of_decide_eq_true (List.all_eq_true.mp h c hc)

theorem printable_of_isDigit {c : Char} (h : c.isDigit = true) : IsPrintableAscii c := by
  simp only [Char.isDigit, ge_iff_le, Bool.and_eq_true, decide_eq_true_eq] at h
  have hlow : ('0' : Char).toNat ≤ c.toNat := h.1
  have hhigh : c.toNat ≤ ('9' : Char).toNat := h.2
  exact ⟨le_trans (by decide) hlow, hhigh.trans (by decide)⟩

theorem printable_intText (n : ℤ) : ∀ c ∈ intText n, IsPrintableAscii c := by
  have hdigits : ∀ m : ℕ, ∀ c ∈ Nat.toDigits 10 m, IsPrintableAscii c := fun m c hc =>
    printable_of_isDigit (Nat.isDigit_of_mem_toDigits (by decide) (by decide) hc)
  cases n with
  | ofNat n => exact hdigits n
  | negSucc n => exact List.forall_mem_cons.mpr ⟨by decide, hdigits _⟩

theorem printable_hexEscape (n : ℕ) : ∀ c ∈ hexEscape n, IsPrintableAscii c := by
  have hdigit : ∀ m, IsPrintableAscii (hexDigit m) := by
    have hall : ∀ m < 16, IsPrintableAscii (Nat.digitChar m) := by decide
    exact fun m => hall _ (Nat.mod_lt _ (by decide))
  have hmarks : IsPrintableAscii '\\' ∧ IsPrintableAscii 'u' := by decide
  unfold hexEscape
  simp only [List.forall_mem_cons]
  exact ⟨hmarks.1, hmarks.2, hdigit _, hdigit _, hdigit _, hdigit _, nofun⟩

theorem printable_asciiPoint (p : CodePoint) : ∀ c ∈ asciiPoint p, IsPrintableAscii c := by
  have hsmall : ∀ n < 0x7F, ((escapeChar (Char.ofNat n)).all fun c =>
      decide (IsPrintableAscii c)) = true := by decide
  cases p with
  | surrogate n => exact printable_hexEscape _
  | scalar c =>
    rw [asciiPoint]
    split_ifs with hascii hplane
    · have h := printable_of_all (hsmall c.toNat (Nat.lt_succ_of_le hascii))
      rw [Char.ofNat_toNat] at h
      exact h
    · exact printable_hexEscape _
    · intro d hd
      rcases List.mem_append.mp hd with hd | hd
      · exact printable_hexEscape _ d hd
      · exact printable_hexEscape _ d hd

theorem printable_joinComma {ts : List (List Char)} (h : ∀ t ∈ ts, ∀ c ∈ t, IsPrintableAscii c) :
    ∀ c ∈ joinComma ts, IsPrintableAscii c := by
  induction ts with
  | nil => nofun
  | cons t ts ih =>
    obtain ⟨hfirst, hrest⟩ := List.forall_mem_cons.mp h
    cases ts with
    | nil => exact hfirst
    | cons u ts =>
      have hcomma : IsPrintableAscii ',' := by decide
      rw [joinComma, List.forall_mem_append, List.forall_mem_cons]
      exact ⟨hfirst, hcomma, ih hrest⟩

theorem printable_points (s : PyStr) : ∀ c ∈ s.flatMap asciiPoint, IsPrintableAscii c := by
  intro c hc
  obtain ⟨p, -, hp⟩ := List.mem_flatMap.mp hc
  exact printable_asciiPoint p c hp

mutual
/-- No control characters, no line feed among them. -/
theorem printable_dumps : ∀ j : Json, ∀ c ∈ j.dumps, IsPrintableAscii c
  | .null | .bool true | .bool false => printable_of_all (by decide)
  | .float _ _ => nofun
  | .int n => printable_intText n
  | .str s => by
    have hquote : IsPrintableAscii '"' := by decide
    rw [dumps, List.forall_mem_cons, List.forall_mem_append, List.forall_mem_singleton]
    exact ⟨hquote, printable_points s, hquote⟩
  | .arr items => by
    have hmarks : IsPrintableAscii '[' ∧ IsPrintableAscii ']' := by decide
    rw [dumps, List.forall_mem_cons, List.forall_mem_append, List.forall_mem_singleton]
    exact ⟨hmarks.1, printable_joinComma (printable_dumpsItems items), hmarks.2⟩
  | .obj entries => by
    have hmarks : IsPrintableAscii '\x7b' ∧ IsPrintableAscii '\x7d' := by decide
    rw [dumps, List.forall_mem_cons, List.forall_mem_append, List.forall_mem_singleton]
    exact ⟨hmarks.1, printable_joinComma (printable_dumpsEntries entries), hmarks.2⟩
theorem printable_dumpsItems : ∀ items : List Json, ∀ t ∈ dumpsItems items, ∀ c ∈ t,
    IsPrintableAscii c
  | [] => nofun
  | j :: items => List.forall_mem_cons.mpr ⟨printable_dumps j, printable_dumpsItems items⟩
theorem printable_dumpsEntries : ∀ entries : List (PyStr × Json), ∀ t ∈ dumpsEntries entries,
    ∀ c ∈ t, IsPrintableAscii c
  | [] => nofun
  | (k, v) :: entries => by
    have hmarks : IsPrintableAscii '"' ∧ IsPrintableAscii ':' := by decide
    refine List.forall_mem_cons.mpr ⟨?_, printable_dumpsEntries entries⟩
    rw [List.forall_mem_cons, List.forall_mem_append, List.forall_mem_cons, List.forall_mem_cons]
    exact ⟨hmarks.1, printable_points k, hmarks.1, hmarks.2, printable_dumps v⟩
end

end Json

/-! ### An object on a line of its own

A text with something in front of a line feed and an object after it is not read: no value goes over
a line feed into an object and ends with it (`loads_barrier`).  In each part of the parser what is
left is the line feed and the object, with less in front than before. -/

namespace Json

section Barrier

/-- The object is still to be read, with fewer than `n` characters in front of its line. -/
def Ahead (object : List Char) (n : ℕ) (rest : List Char) : Prop :=
  ∃ q, rest = q ++ '\n' :: object ∧ q.length < n

/-- Something other than white space stands in front of the object's line. -/
def Starts (object : List Char) (n : ℕ) (cs : List Char) : Prop :=
  ∃ c p, cs = c :: p ++ '\n' :: object ∧ isJsonSpace c = false ∧ p.length < n

variable {object : List Char}

theorem Ahead.mono {n m : ℕ} {rest : List Char} (h : Ahead object n rest) (hle : n ≤ m) :
    Ahead object m rest := by
  obtain ⟨q, rfl, hlt⟩ := h
  exact ⟨q, rfl, hlt.trans_le hle⟩

theorem Ahead.succ {n : ℕ} {rest : List Char} (h : Ahead object n rest) :
    Ahead object (n + 1) rest := h.mono (Nat.le_succ n)

theorem ahead_self (p : List Char) : Ahead object (p.length + 1) (p ++ '\n' :: object) :=
  ⟨p, rfl, Nat.lt_succ_self _⟩

/-- A word without a line feed stands in front of it. -/
theorem eq_append_of_not_mem {word p cs : List Char} (h : word ++ cs = p ++ '\n' :: object)
    (hword : '\n' ∉ word) : ∃ q, p = word ++ q ∧ cs = q ++ '\n' :: object := by
  induction word generalizing p with
  | nil => exact ⟨p, rfl, h⟩
  | cons c word ih =>
    rw [List.mem_cons, not_or] at hword
    cases p with
    | nil => exact absurd (List.cons.inj h).1.symm hword.1
    | cons d p =>
      obtain ⟨rfl, hrest⟩ := List.cons.inj h
      obtain ⟨q, rfl, hq⟩ := ih hrest hword.2
      exact ⟨q, rfl, hq⟩

theorem eq_cons_of_ne {p cs : List Char} {c : Char} (h : c :: cs = p ++ '\n' :: object)
    (hc : c ≠ '\n') : ∃ q, p = c :: q ∧ cs = q ++ '\n' :: object :=
  eq_append_of_not_mem (show [c] ++ cs = _ from h) (by simpa using hc.symm)

theorem ahead_of_append {word p cs : List Char} (h : word ++ cs = p ++ '\n' :: object)
    (hword : '\n' ∉ word) (hne : word ≠ []) : Ahead object p.length cs := by
  obtain ⟨q, rfl, rfl⟩ := eq_append_of_not_mem h hword
  have hpos := List.length_pos_iff.mpr hne
  exact (ahead_self q).mono (by rw [List.length_append]; omega)

/-! ### Strings and numbers -/

theorem ne_lineFeed_of_hexPoint {a b c d : Char} {p : CodePoint} (h : hexPoint a b c d = some p) :
    a ≠ '\n' ∧ b ≠ '\n' ∧ c ≠ '\n' ∧ d ≠ '\n' := by
  have hdigit : ∀ {x : Char} {n : ℕ}, hexValue x = some n → x ≠ '\n' := by
    rintro x n hx rfl
    cases hx
  unfold hexPoint at h
  obtain ⟨n, hn, h⟩ := Option.bind_eq_some_iff.mp h
  obtain ⟨m, hm, h⟩ := Option.bind_eq_some_iff.mp h
  obtain ⟨k, hk, h⟩ := Option.bind_eq_some_iff.mp h
  obtain ⟨l, hl, -⟩ := Option.bind_eq_some_iff.mp h
  exact ⟨hdigit hn, hdigit hm, hdigit hk, hdigit hl⟩

theorem ahead_unescape {p cs rest : List Char} {s : PyStr} (hcs : cs = p ++ '\n' :: object)
    (h : unescape cs = .ok (s, rest)) : Ahead object p.length rest := by
  induction cs using unescape.induct generalizing p s rest with
  | case1 => cases h
  | case2 cs =>
    obtain ⟨q, rfl, rfl⟩ := eq_cons_of_ne hcs (by decide)
    rw [unescape] at h
    cases h
    exact ahead_self _
  | case3 a b c d cs hpoint =>
    rw [unescape, hpoint] at h
    cases h
  | case4 a b c d cs point hpoint ih =>
    rw [unescape, hpoint] at h
    obtain ⟨⟨s, rest⟩, hrest, h⟩ := Except.bind_eq_ok.mp h
    cases h
    obtain ⟨ha, hb, hc, hd⟩ := ne_lineFeed_of_hexPoint hpoint
    have hword : '\n' ∉ ['\\', 'u', a, b, c, d] := by
      simp [ha.symm, hb.symm, hc.symm, hd.symm]
    obtain ⟨q, rfl, hq⟩ := eq_append_of_not_mem
      (show ['\\', 'u', a, b, c, d] ++ cs = _ from hcs) hword
    exact (ih hq hrest).mono (by rw [List.length_append]; omega)
  | case5 e cs hshort hescape =>
    rw [unescape, hescape] at h
    · cases h
    · exact hshort
  | case6 e cs hshort c hescape ih =>
    rw [unescape, hescape] at h
    · obtain ⟨⟨s, rest⟩, hrest, h⟩ := Except.bind_eq_ok.mp h
      cases h
      have he : e ≠ '\n' := by
        rintro rfl
        cases hescape
      obtain ⟨q, rfl, hq⟩ := eq_append_of_not_mem (show ['\\', e] ++ cs = _ from hcs)
        (by simp [he.symm])
      exact (ih hq hrest).mono (by rw [List.length_append]; omega)
    · exact hshort
  | case7 c cs hquote hlong hshort hcontrol =>
    rw [unescape, if_pos hcontrol] at h
    · cases h
    all_goals assumption
  | case8 c cs hquote hlong hshort hcontrol ih =>
    rw [unescape, if_neg hcontrol] at h
    · obtain ⟨⟨s, rest⟩, hrest, h⟩ := Except.bind_eq_ok.mp h
      cases h
      have hc : c ≠ '\n' := by
        rintro rfl
        exact hcontrol (.inr (by decide))
      obtain ⟨q, rfl, h₁⟩ := eq_cons_of_ne hcs hc
      exact (ih h₁ hrest).succ
    all_goals assumption

theorem ahead_parseString {p rest : List Char} {s : PyStr}
    (h : parseString (p ++ '\n' :: object) = .ok (s, rest)) : Ahead object p.length rest := by
  obtain ⟨⟨t, rest⟩, ht, h⟩ := Except.bind_eq_ok.mp h
  cases h
  exact ahead_unescape rfl ht

/-- Digits end at the line feed. -/
theorem ahead_dropWhile_digits (p : List Char) :
    Ahead object (p.length + 1) ((p ++ '\n' :: object).dropWhile Char.isDigit) := by
  induction p with
  | nil => exact ahead_self []
  | cons c p ih =>
    rw [List.cons_append, List.dropWhile_cons]
    split_ifs with hdigit
    · exact ih.succ
    · exact ahead_self (c :: p)

theorem ahead_parseFraction (p : List Char) :
    Ahead object (p.length + 1) (parseFraction (p ++ '\n' :: object)).2 := by
  cases p with
  | nil => exact ahead_self []
  | cons c p =>
    rw [List.cons_append, parseFraction.eq_def]
    split
    · rename_i hcs
      obtain ⟨rfl, rfl⟩ := List.cons.inj hcs
      split_ifs
      · exact ahead_self ('.' :: p)
      · exact (ahead_dropWhile_digits p).succ
    · exact ahead_self (c :: p)

theorem ahead_parseExponent (p : List Char) :
    Ahead object (p.length + 1) (parseExponent (p ++ '\n' :: object)).2 := by
  cases p with
  | nil => exact ahead_self []
  | cons e p =>
    have hdigits : ∀ ds : List Char, (∃ q, ds = q ++ '\n' :: object ∧ q.length ≤ p.length) →
        Ahead object ((e :: p).length + 1) (ds.dropWhile Char.isDigit) := by
      rintro _ ⟨q, rfl, hle⟩
      exact (ahead_dropWhile_digits q).mono (by rw [List.length_cons]; omega)
    -- With its sign read or not, the exponent has the line feed after it.
    have hsign : ∀ {sign : Char} {ds : List Char}, p ++ '\n' :: object = sign :: ds →
        sign ≠ '\n' → ∃ q, ds = q ++ '\n' :: object ∧ q.length ≤ p.length := by
      intro sign ds hds hne
      obtain ⟨q, rfl, rfl⟩ := eq_cons_of_ne hds.symm hne
      exact ⟨q, rfl, Nat.le_succ _⟩
    rw [List.cons_append, parseExponent.eq_def]
    simp only
    split_ifs
    · exact ahead_self (e :: p)
    · apply hdigits
      split
      · exact hsign ‹_› (by decide)
      · exact hsign ‹_› (by decide)
      · exact ⟨p, rfl, le_rfl⟩
    · apply hdigits
      split
      · exact hsign ‹_› (by decide)
      · exact hsign ‹_› (by decide)
      · exact ⟨p, rfl, le_rfl⟩
    · exact ahead_self (e :: p)

theorem ahead_numberTail {neg : Bool} {digits p rest : List Char} {j : Json}
    (h : numberTail neg digits (p ++ '\n' :: object) = .ok (j, rest)) :
    Ahead object (p.length + 1) rest := by
  have hfraction : Ahead object (p.length + 1) (parseFraction (p ++ '\n' :: object)).2 :=
    ahead_parseFraction p
  unfold numberTail at h
  simp only at h
  obtain ⟨q, hq, hlt⟩ := hfraction
  rw [hq] at h
  have hexponent : Ahead object (p.length + 1) (parseExponent (q ++ '\n' :: object)).2 :=
    (ahead_parseExponent q).mono hlt
  split at h
  · split at h
    · cases h
      exact hexponent
    · cases h
  · cases h
    exact hexponent

theorem ahead_parseUnsigned {neg : Bool} {p rest : List Char} {j : Json}
    (h : parseUnsigned neg (p ++ '\n' :: object) = .ok (j, rest)) :
    Ahead object p.length rest := by
  cases p with
  | nil => cases h
  | cons d p =>
    rw [List.cons_append, parseUnsigned] at h
    split_ifs at h with hzero hdigit
    · exact ahead_numberTail h
    · have hdigits : Ahead object (p.length + 1)
          ((p ++ '\n' :: object).dropWhile Char.isDigit) := ahead_dropWhile_digits p
      obtain ⟨q, hq, hlt⟩ := hdigits
      rw [hq] at h
      exact (ahead_numberTail h).mono hlt

theorem ahead_parseScalar {p rest : List Char} {j : Json}
    (h : parseScalar (p ++ '\n' :: object) = .ok (j, rest)) : Ahead object p.length rest := by
  generalize hcs : p ++ '\n' :: object = cs at h
  rw [parseScalar.eq_def] at h
  split at h
  · cases h
    exact ahead_of_append (show ['n', 'u', 'l', 'l'] ++ _ = _ from hcs.symm) (by decide) (by decide)
  · cases h
    exact ahead_of_append (show ['t', 'r', 'u', 'e'] ++ _ = _ from hcs.symm) (by decide) (by decide)
  · cases h
    exact ahead_of_append (show ['f', 'a', 'l', 's', 'e'] ++ _ = _ from hcs.symm) (by decide)
      (by decide)
  · subst hcs
    rw [parseNumber.eq_def] at h
    split at h
    · rename_i ds hds
      obtain ⟨q, rfl, rfl⟩ := eq_cons_of_ne hds.symm (by decide)
      exact (ahead_parseUnsigned h).succ
    · exact ahead_parseUnsigned h

/-! ### Values -/

theorem Starts.tail {n : ℕ} {c : Char} {cs : List Char} (h : Starts object n (c :: cs)) :
    Ahead object n cs := by
  obtain ⟨d, p, hcs, -, hlt⟩ := h
  rw [List.cons_append] at hcs
  obtain ⟨-, rfl⟩ := List.cons.inj hcs
  exact ⟨p, rfl, hlt⟩

theorem Ahead.exists_succ {n : ℕ} {cs : List Char} (h : Ahead object n cs) : ∃ m, n = m + 1 := by
  obtain ⟨p, -, hlt⟩ := h
  exact Nat.exists_eq_add_one_of_ne_zero (Nat.ne_zero_of_lt hlt)

/-- The object alone is read to its end. -/
theorem rest_of_object {d : ℕ} {j : Json} (hobject : ReadAs object d j) {fuel limit : ℕ} {v : Json}
    {rest : List Char} (hfuel : object.length < fuel)
    (h : parseValue fuel limit object = .ok (v, rest)) : rest = [] := by
  have hread := hobject.reads fuel (max limit d) [] hfuel (le_max_right limit d) stops_nil
  rw [List.append_nil, (parse_limit_mono fuel).1 (le_max_left limit d) h] at hread
  exact congrArg Prod.snd (Except.ok.inj hread)

/-- After white space there is something in front of the object's line, or there was nothing
    else. -/
theorem spaces_or_starts {n : ℕ} {p : List Char} (hlt : p.length < n + 1) :
    (∀ c ∈ p, isJsonSpace c = true) ∨ Starts object n (skipSpace (p ++ '\n' :: object)) := by
  induction p with
  | nil => exact .inl nofun
  | cons c p ih =>
    rw [List.length_cons] at hlt
    rw [List.cons_append, skipSpace, List.dropWhile_cons]
    split_ifs with hspace
    · rcases ih (Nat.lt_of_succ_lt hlt) with hspaces | hstarts
      · exact .inl (List.forall_mem_cons.mpr ⟨hspace, hspaces⟩)
      · exact .inr hstarts
    · exact .inr ⟨c, p, rfl, by simpa using hspace, Nat.lt_of_succ_lt_succ hlt⟩

variable (hopens : ∃ cs, object = '\x7b' :: cs)

include hopens

theorem skipSpace_ahead {n : ℕ} {cs : List Char} (h : Ahead object (n + 1) cs) :
    skipSpace cs = object ∨ Starts object n (skipSpace cs) := by
  obtain ⟨p, rfl, hlt⟩ := h
  rcases spaces_or_starts hlt with hspaces | hstarts
  · obtain ⟨cs, rfl⟩ := hopens
    rw [skipSpace, List.dropWhile_append_of_pos hspaces]
    exact .inl rfl
  · exact .inr hstarts

/-- A sign after white space is in front of the object. -/
theorem Ahead.after {n : ℕ} {c : Char} {cs rest : List Char} (h : Ahead object n cs)
    (hskip : skipSpace cs = c :: rest) (hc : c ≠ '\x7b') :
    ∃ m, n = m + 1 ∧ Ahead object m rest := by
  obtain ⟨m, rfl⟩ := h.exists_succ
  refine ⟨m, rfl, ?_⟩
  rcases skipSpace_ahead hopens h with hobject | hstarts
  · obtain ⟨ds, rfl⟩ := hopens
    rw [hskip] at hobject
    exact absurd (List.cons.inj hobject).1 hc
  · rw [hskip] at hstarts
    exact hstarts.tail

variable {d : ℕ} {j : Json} (hobject : ReadAs object d j)

include hobject

/-- Nothing that starts in front of the object is read beyond its line feed. -/
theorem ahead_of_parse (fuel : ℕ) :
    (∀ {n limit : ℕ} {cs rest : List Char} {v : Json}, Starts object n cs →
        2 * (n + object.length + 1) < fuel → parseValue fuel limit cs = .ok (v, rest) →
        Ahead object n rest)
      ∧ (∀ {n limit : ℕ} {cs rest : List Char} {items : List Json},
        cs = object ∨ Starts object n cs → 2 * (n + object.length + 1) + 1 < fuel →
        parseItems fuel limit cs = .ok (items, rest) → Ahead object n rest)
      ∧ ∀ {n limit : ℕ} {cs rest : List Char} {entries : List (PyStr × Json)},
        cs = object ∨ Starts object n cs → 2 * (n + object.length + 1) + 1 < fuel →
        parseMembers fuel limit cs = .ok (entries, rest) → Ahead object n rest := by
  induction fuel with
  | zero => exact ⟨nofun, nofun, nofun⟩
  | succ fuel ih =>
    obtain ⟨ihValue, ihItems, ihMembers⟩ := ih
    refine ⟨?_, ?_, ?_⟩
    · intro n limit cs rest v hstarts hfuel h
      cases cs with
      | nil => exact absurd h (by simp [parseValue, parseScalar, parseNumber, parseUnsigned])
      | cons c cs =>
        have hahead := hstarts.tail
        by_cases hquote : c = '"'
        · subst hquote
          rw [parseValue] at h
          obtain ⟨⟨s, rest⟩, hs, h⟩ := Except.bind_eq_ok.mp h
          cases h
          obtain ⟨p, rfl, hlt⟩ := hahead
          exact (ahead_parseString hs).mono hlt.le
        by_cases hbrace : c = '\x7b'
        · subst hbrace
          cases limit with
          | zero => cases h
          | succ limit =>
            rw [parseValue] at h
            split at h
            · cases h
              obtain ⟨m, rfl, hrest⟩ := hahead.after hopens ‹_› (by decide)
              exact hrest.succ
            · obtain ⟨⟨entries, rest⟩, hentries, h⟩ := Except.bind_eq_ok.mp h
              cases h
              obtain ⟨m, rfl⟩ := hahead.exists_succ
              exact (ihMembers (skipSpace_ahead hopens hahead) (by omega) hentries).succ
        by_cases hbracket : c = '['
        · subst hbracket
          cases limit with
          | zero => cases h
          | succ limit =>
            rw [parseValue] at h
            split at h
            · cases h
              obtain ⟨m, rfl, hrest⟩ := hahead.after hopens ‹_› (by decide)
              exact hrest.succ
            · obtain ⟨⟨items, rest⟩, hitems, h⟩ := Except.bind_eq_ok.mp h
              cases h
              obtain ⟨m, rfl⟩ := hahead.exists_succ
              exact (ihItems (skipSpace_ahead hopens hahead) (by omega) hitems).succ
        rw [parseValue_scalar hquote hbrace hbracket] at h
        obtain ⟨d, p, hcs, -, hlt⟩ := hstarts
        rw [hcs] at h
        exact (ahead_parseScalar h).mono hlt
    · intro n limit cs rest items hcs hfuel h
      rw [parseItems] at h
      obtain ⟨⟨v, rest₁⟩, hv, h⟩ := Except.bind_eq_ok.mp h
      simp only at h
      rcases hcs with rfl | hstarts
      · cases rest_of_object hobject (by omega) hv
        cases h
      · have hahead := ihValue hstarts (by omega) hv
        split at h
        · cases h
          obtain ⟨m, rfl, hrest⟩ := hahead.after hopens ‹_› (by decide)
          exact hrest.succ
        · obtain ⟨m, rfl, hrest⟩ := hahead.after hopens ‹_› (by decide)
          obtain ⟨⟨items, rest₃⟩, hitems, h⟩ := Except.bind_eq_ok.mp h
          cases h
          obtain ⟨k, rfl⟩ := hrest.exists_succ
          exact (ihItems (skipSpace_ahead hopens hrest) (by omega) hitems).succ.succ
        · cases h
    · intro n limit cs rest entries hcs hfuel h
      cases cs with
      | nil => cases h
      | cons c cs =>
        by_cases hquote : c = '"'
        · subst hquote
          have hstarts : Starts object n ('"' :: cs) := by
            rcases hcs with rfl | hstarts
            · obtain ⟨ds, hds⟩ := hopens
              exact absurd (List.cons.inj hds).1 (by decide)
            · exact hstarts
          obtain ⟨p, rfl, hlt⟩ := hstarts.tail
          rw [parseMembers] at h
          obtain ⟨⟨k, rest₁⟩, hk, h⟩ := Except.bind_eq_ok.mp h
          simp only at h
          have hkey := (ahead_parseString hk).mono hlt.le
          split at h
          · obtain ⟨⟨v, rest₂⟩, hv, h⟩ := Except.bind_eq_ok.mp h
            simp only at h
            obtain ⟨m, rfl, hcolon⟩ := hkey.after hopens ‹_› (by decide)
            obtain ⟨m, rfl⟩ := hcolon.exists_succ
            rcases skipSpace_ahead hopens hcolon with hsame | hvalue
            · rw [hsame] at hv
              cases rest_of_object hobject (by omega) hv
              cases h
            · have hahead := ihValue hvalue (by omega) hv
              split at h
              · cases h
                obtain ⟨m, rfl, hrest⟩ := hahead.after hopens ‹_› (by decide)
                exact hrest.succ.succ.succ
              · obtain ⟨m, rfl, hrest⟩ := hahead.after hopens ‹_› (by decide)
                obtain ⟨⟨entries, rest₃⟩, hentries, h⟩ := Except.bind_eq_ok.mp h
                cases h
                obtain ⟨k, rfl⟩ := hrest.exists_succ
                exact (ihMembers (skipSpace_ahead hopens hrest) (by omega)
                  hentries).succ.succ.succ.succ
              · cases h
          · cases h
        · exact absurd h (by simp [parseMembers, hquote])

/-- **The barrier.**  Before an object on a line of its own there is white space only. -/
theorem loads_barrier {limit : ℕ} {x : List Char} {v : Json}
    (h : loads limit (x ++ '\n' :: object) = .ok v) : ∀ c ∈ x, isJsonSpace c = true := by
  rcases spaces_or_starts (Nat.lt_succ_self x.length) with hspaces | hstarts
  · exact hspaces
  rw [loads.eq_def] at h
  split at h
  · cases h
  · obtain ⟨⟨w, rest⟩, hw, h⟩ := Except.bind_eq_ok.mp h
    have hfuel : 2 * (x.length + object.length + 1)
        < 2 * (x ++ '\n' :: object).length + 2 := by
      rw [List.length_append, List.length_cons]
      omega
    have hrest := (ahead_of_parse hopens hobject _).1 hstarts hfuel hw
    -- The line feed and the object are left over.
    have hleft : (skipSpace rest).isEmpty = false := by
      obtain ⟨n, hn⟩ := hrest.exists_succ
      rw [hn] at hrest
      rcases skipSpace_ahead hopens hrest with hsame | ⟨c, p, hcs, -⟩
      · obtain ⟨cs, rfl⟩ := hopens
        rw [hsame]
        rfl
      · rw [hcs]
        rfl
    simp only [hleft, Bool.false_eq_true, if_false, reduceCtorEq] at h

end Barrier

end Json

end Agora
