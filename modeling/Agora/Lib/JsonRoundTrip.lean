import Agora.Lib.JsonText

namespace Agora

/-!
# Reading back canonical JSON

`loads_canonical`: the parser inverts `Json.canonical` on encodable values, up to the order of keys.
`ReadAs` says that a text is read as a value; it holds of the texts of strings and numbers, and of
those of arrays and objects when it does of what is in them, whatever wrote them.
-/

namespace Json

/-! ### Strings -/

/-- Prepend a code point to what has been read. -/
private def consPoint (p : CodePoint) (r : PyStr × List Char) : PyStr × List Char := (p :: r.1, r.2)

private theorem unescape_bind (p : CodePoint) (cs : List Char) :
    (do let (s, rest) ← unescape cs; .ok (p :: s, rest)) = (unescape cs).map (consPoint p) := by
  cases unescape cs with
  | error e => rfl
  | ok r => rfl

private theorem hexPoint_control : ∀ n < 0x20, hexPoint '0' '0' (hexDigit (n / 16)) (hexDigit n)
    = some (.scalar (Char.ofNat n)) := by
  decide

/-- Reading an escaped character gives the character. -/
theorem unescape_escapeChar (c : Char) (cs : List Char) :
    unescape (escapeChar c ++ cs) = (unescape cs).map (consPoint (.scalar c)) := by
  unfold escapeChar
  split_ifs with hquote hback hlf hcr htab hff hbs hcontrol
  · subst hquote; exact unescape_bind _ _
  · subst hback; exact unescape_bind _ _
  · subst hlf; exact unescape_bind _ _
  · subst hcr; exact unescape_bind _ _
  · subst htab; exact unescape_bind _ _
  · have hc : c = Char.ofNat 0x0C := by rw [← hff, Char.ofNat_toNat]
    subst hc; exact unescape_bind _ _
  · have hc : c = Char.ofNat 0x08 := by rw [← hbs, Char.ofNat_toNat]
    subst hc; exact unescape_bind _ _
  · have hpoint := hexPoint_control c.toNat hcontrol
    rw [Char.ofNat_toNat] at hpoint
    simp only [List.cons_append, List.nil_append, unescape, hpoint]
    exact unescape_bind _ _
  · simp only [List.singleton_append]
    rw [unescape.eq_def]
    split
    · simp_all
    · simp_all
    · simp_all
    · simp_all
    · rename_i c' cs' _ _ _ heq
      obtain ⟨rfl, rfl⟩ := List.cons.inj heq
      rw [if_neg (not_or.mpr ⟨hback, hcontrol⟩)]
      exact unescape_bind _ _

/-- Reading an escaped string up to its closing quote gives the string. -/
theorem unescape_string (cs rest : List Char) :
    unescape ((PyStr.ofChars cs).flatMap escapePoint ++ '"' :: rest)
      = .ok (PyStr.ofChars cs, rest) := by
  induction cs with
  | nil => simp [PyStr.ofChars, unescape]
  | cons c cs ih =>
    simp only [PyStr.ofChars, List.map_cons, List.flatMap_cons, escapePoint,
      List.append_assoc] at ih ⊢
    rw [unescape_escapeChar, ih]
    rfl

theorem joinSurrogates_ofChars (cs : List Char) :
    joinSurrogates (PyStr.ofChars cs) = PyStr.ofChars cs := by
  induction cs with
  | nil => rfl
  | cons c cs ih =>
    simp only [PyStr.ofChars, List.map_cons] at ih ⊢
    rw [joinSurrogates, ih]
    simp

theorem exists_chars_of_isScalar {s : PyStr} (h : isScalar s = true) :
    ∃ cs, s = PyStr.ofChars cs := by
  obtain ⟨cs, hcs⟩ := Option.isSome_iff_exists.mp h
  exact ⟨cs, PyStr.eq_ofChars_of_chars? hcs⟩

/-- **Strings.**  After the opening quote, a string is read up to its closing quote. -/
theorem parseString_stringText {s : PyStr} (h : isScalar s = true) (rest : List Char) :
    parseString (s.flatMap escapePoint ++ '"' :: rest) = .ok (s, rest) := by
  obtain ⟨cs, rfl⟩ := exists_chars_of_isScalar h
  rw [parseString, unescape_string, Except.ok_bind]
  exact congrArg (fun s => Except.ok (s, rest)) (joinSurrogates_ofChars cs)

/-! ### Numbers -/

/-- The text does not go on with a character that could belong to a number. -/
def Stops (rest : List Char) : Prop :=
  ∀ c cs, rest = c :: cs → c.isDigit = false ∧ c ≠ '.' ∧ c ≠ 'e' ∧ c ≠ 'E'

theorem stops_nil : Stops [] := by
  intro c cs h
  cases h

theorem stops_cons {c : Char} {cs : List Char} (h : c ∈ [',', ']', '}', '\n']) :
    Stops (c :: cs) := by
  rintro _ _ ⟨rfl, rfl⟩
  simp only [List.mem_cons, List.not_mem_nil, or_false] at h
  rcases h with rfl | rfl | rfl | rfl <;> decide

theorem takeWhile_digits {ds rest : List Char} (hds : ∀ c ∈ ds, c.isDigit = true)
    (hrest : Stops rest) : (ds ++ rest).takeWhile Char.isDigit = ds := by
  rw [List.takeWhile_append_of_pos hds]
  cases rest with
  | nil => simp
  | cons c cs => simp [(hrest c cs rfl).1]

theorem dropWhile_digits {ds rest : List Char} (hds : ∀ c ∈ ds, c.isDigit = true)
    (hrest : Stops rest) : (ds ++ rest).dropWhile Char.isDigit = rest := by
  rw [List.dropWhile_append_of_pos hds]
  cases rest with
  | nil => simp
  | cons c cs => simp [(hrest c cs rfl).1]

theorem numberTail_of_stops {neg : Bool} {digits rest : List Char} (hrest : Stops rest)
    (hlen : digits.length ≤ maxStrDigits) :
    numberTail neg digits rest = .ok (.int (if neg then -(Nat.ofDigitChars 10 digits 0 : ℤ)
      else Nat.ofDigitChars 10 digits 0), rest) := by
  have hfraction : parseFraction rest = (none, rest) := by
    unfold parseFraction
    split
    · exact absurd rfl (hrest _ _ rfl).2.1
    · rfl
  have hexponent : parseExponent rest = (none, rest) := by
    unfold parseExponent
    split
    · rw [if_neg]
      exact not_or.mpr ⟨(hrest _ _ rfl).2.2.1, (hrest _ _ rfl).2.2.2⟩
    · rfl
  rw [numberTail, hfraction]
  simp only [hexponent]
  rw [if_pos hlen]

private theorem digitChar_pos : ∀ n < 10, 0 < n →
    n.digitChar ≠ '0' ∧ n.digitChar.isDigit = true := by
  decide

/-- The text of a positive number starts with a nonzero digit. -/
theorem toDigits_eq_cons (n : ℕ) (hn : 0 < n) :
    ∃ d ds, Nat.toDigits 10 n = d :: ds ∧ d ≠ '0' ∧ d.isDigit = true := by
  induction n using Nat.strong_induction_on with
  | _ n ih =>
    by_cases hlt : n < 10
    · rw [Nat.toDigits_of_lt_base hlt]
      exact ⟨_, _, rfl, digitChar_pos n hlt hn⟩
    · rw [Nat.toDigits_of_base_le (by decide) (Nat.le_of_not_lt hlt)]
      obtain ⟨d, ds, hds, hd⟩ := ih (n / 10) (by omega) (by omega)
      rw [hds]
      exact ⟨d, _, rfl, hd⟩

theorem parseUnsigned_toDigits {neg : Bool} {n : ℕ} {rest : List Char} (hrest : Stops rest)
    (hlen : (Nat.toDigits 10 n).length ≤ maxStrDigits) :
    parseUnsigned neg (Nat.toDigits 10 n ++ rest)
      = .ok (.int (if neg then -(n : ℤ) else n), rest) := by
  have hvalue : Nat.ofDigitChars 10 (Nat.toDigits 10 n) 0 = n := Nat.ofDigitChars_ten_toDigits
  have hdigits : ∀ c ∈ Nat.toDigits 10 n, c.isDigit = true :=
    fun c hc => Nat.isDigit_of_mem_toDigits (by decide) (by decide) hc
  rcases Nat.eq_zero_or_pos n with rfl | hn
  · rw [Nat.toDigits_zero] at hlen ⊢
    simp only [List.singleton_append, parseUnsigned, if_pos]
    rw [numberTail_of_stops hrest hlen, ← Nat.toDigits_zero 10, hvalue]
  · obtain ⟨d, ds, hds, hzero, hdigit⟩ := toDigits_eq_cons n hn
    rw [hds] at hlen hvalue hdigits ⊢
    have htail : ∀ c ∈ ds, c.isDigit = true := fun c hc => hdigits c (List.mem_cons_of_mem _ hc)
    rw [List.cons_append, parseUnsigned, if_neg hzero, if_pos hdigit,
      takeWhile_digits htail hrest, dropWhile_digits htail hrest,
      numberTail_of_stops hrest hlen, hvalue]

/-- **Numbers.** -/
theorem parseNumber_intText {n : ℤ} {rest : List Char} (hrest : Stops rest)
    (hprint : isPrintable n = true) : parseNumber (intText n ++ rest) = .ok (.int n, rest) := by
  cases n with
  | ofNat n =>
    have hlen : (Nat.toDigits 10 n).length ≤ maxStrDigits := of_decide_eq_true hprint
    have hhead : ∀ cs, intText (.ofNat n) ++ rest ≠ '-' :: cs := by
      intro cs h
      rcases Nat.eq_zero_or_pos n with rfl | hn
      · simp [intText, Nat.toDigits_zero] at h
      · obtain ⟨d, ds, hds, -, hdigit⟩ := toDigits_eq_cons n hn
        rw [intText, hds, List.cons_append] at h
        obtain ⟨rfl, -⟩ := List.cons.inj h
        simp at hdigit
    rw [parseNumber.eq_2 _ hhead, intText, parseUnsigned_toDigits hrest hlen]
    rfl
  | negSucc n =>
    have hlen : (Nat.toDigits 10 (n + 1)).length ≤ maxStrDigits := of_decide_eq_true hprint
    rw [intText, List.cons_append, parseNumber, parseUnsigned_toDigits hrest hlen]
    rfl

/-! ### Values -/

/-- A character no canonical text starts with: it would end or be skipped where a value is
    expected. -/
def Opens (c : Char) : Prop := isJsonSpace c = false ∧ c ≠ ']' ∧ c ≠ '}' ∧ c ≠ '\uFEFF'

private theorem opens_of_isDigit {c : Char} (h : c.isDigit = true) : Opens c := by
  refine ⟨?_, ?_, ?_, ?_⟩
  · simp only [isJsonSpace, Bool.or_eq_false_iff, decide_eq_false_iff_not]
    refine ⟨⟨⟨?_, ?_⟩, ?_⟩, ?_⟩ <;> rintro rfl <;> simp at h
  all_goals rintro rfl; simp [Char.isDigit] at h

/-- The canonical text of a value is not empty. -/
theorem canonical_eq_cons {j : Json} (h : j.encodable = true) :
    ∃ c cs, j.canonical = c :: cs ∧ Opens c := by
  cases j with
  | null => exact ⟨_, _, rfl, by unfold Opens; decide⟩
  | bool b => cases b <;> exact ⟨_, _, rfl, by unfold Opens; decide⟩
  | int n =>
    cases n with
    | ofNat n =>
      rcases Nat.eq_zero_or_pos n with rfl | hn
      · exact ⟨_, _, rfl, by unfold Opens; decide⟩
      · obtain ⟨d, ds, hds, -, hdigit⟩ := toDigits_eq_cons n hn
        exact ⟨d, ds, hds, opens_of_isDigit hdigit⟩
    | negSucc n => exact ⟨_, _, rfl, by unfold Opens; decide⟩
  | float m e => cases h
  | str s => exact ⟨_, _, rfl, by unfold Opens; decide⟩
  | arr items => exact ⟨_, _, rfl, by unfold Opens; decide⟩
  | obj entries => exact ⟨_, _, rfl, by unfold Opens; decide⟩

theorem skipSpace_cons {c : Char} (h : isJsonSpace c = false) (cs : List Char) :
    skipSpace (c :: cs) = c :: cs := by
  rw [skipSpace, List.dropWhile_cons_of_neg (by simp [h])]

/-- The text of a value: with `d` levels of nesting it is read up to its end. -/
structure ReadAs (text : List Char) (d : ℕ) (j : Json) : Prop where
  opens : ∃ c cs, text = c :: cs ∧ Opens c
  reads : ∀ fuel limit rest, text.length < fuel → d ≤ limit → Stops rest →
    parseValue fuel limit (text ++ rest) = .ok (j, rest)

theorem ReadAs.mono {text : List Char} {d d' : ℕ} {j : Json} (h : ReadAs text d j) (hle : d ≤ d') :
    ReadAs text d' j where
  opens := h.opens
  reads fuel limit rest hfuel hlimit hrest :=
    h.reads fuel limit rest hfuel (hle.trans hlimit) hrest

theorem ReadAs.skipSpace {text : List Char} {d : ℕ} {j : Json} (h : ReadAs text d j)
    (rest : List Char) : Json.skipSpace (text ++ rest) = text ++ rest := by
  obtain ⟨c, cs, rfl, hopen⟩ := h.opens
  rw [List.cons_append, skipSpace_cons hopen.1]

theorem skipSpace_canonical {j : Json} (h : j.encodable = true) (rest : List Char) :
    skipSpace (j.canonical ++ rest) = j.canonical ++ rest := by
  obtain ⟨c, cs, hcs, hopen⟩ := canonical_eq_cons h
  rw [hcs, List.cons_append, skipSpace_cons hopen.1]

theorem parseValue_scalar {fuel limit : ℕ} {c : Char} {cs : List Char} (hquote : c ≠ '"')
    (hbrace : c ≠ '{') (hbracket : c ≠ '[') :
    parseValue (fuel + 1) limit (c :: cs) = parseScalar (c :: cs) := by
  rw [parseValue.eq_def]
  split <;> simp_all

theorem parseScalar_number {c : Char} {cs : List Char} (h : c = '-' ∨ c.isDigit = true) :
    parseScalar (c :: cs) = parseNumber (c :: cs) := by
  unfold parseScalar
  split <;> simp_all [Char.isDigit]

/-- A text without nesting that is read as a scalar. -/
theorem readAs_scalar {text : List Char} {j : Json} (h : ∃ c cs, text = c :: cs ∧ Opens c
    ∧ c ≠ '"' ∧ c ≠ '{' ∧ c ≠ '[')
    (hscalar : ∀ rest, Stops rest → parseScalar (text ++ rest) = .ok (j, rest)) :
    ReadAs text 0 j where
  opens := by
    obtain ⟨c, cs, hcs, hopen, -⟩ := h
    exact ⟨c, cs, hcs, hopen⟩
  reads fuel limit rest hfuel _ hrest := by
    obtain ⟨fuel, rfl⟩ := Nat.exists_eq_add_one_of_ne_zero (Nat.ne_zero_of_lt hfuel)
    obtain ⟨c, cs, rfl, -, hquote, hbrace, hbracket⟩ := h
    have hread := hscalar rest hrest
    rw [List.cons_append] at hread ⊢
    rw [parseValue_scalar hquote hbrace hbracket, hread]

theorem readAs_int {n : ℤ} (hprint : isPrintable n = true) : ReadAs (intText n) 0 (.int n) := by
  -- The text starts with a sign or a digit.
  have hhead : ∃ c cs, intText n = c :: cs ∧ (c = '-' ∨ c.isDigit = true) := by
    cases n with
    | ofNat n =>
      rcases Nat.eq_zero_or_pos n with rfl | hn
      · exact ⟨'0', [], rfl, .inr rfl⟩
      · obtain ⟨d, ds, hds, -, hdigit⟩ := toDigits_eq_cons n hn
        exact ⟨d, ds, hds, .inr hdigit⟩
    | negSucc n => exact ⟨'-', _, rfl, .inl rfl⟩
  obtain ⟨c, cs, hcs, hc⟩ := hhead
  have hopen : Opens c ∧ c ≠ '"' ∧ c ≠ '{' ∧ c ≠ '[' := by
    rcases hc with rfl | hdigit
    · unfold Opens
      decide
    · refine ⟨opens_of_isDigit hdigit, ?_, ?_, ?_⟩ <;> rintro rfl <;> simp [Char.isDigit] at hdigit
  apply readAs_scalar ⟨c, cs, hcs, hopen⟩
  intro rest hrest
  have hnumber := parseNumber_intText hrest hprint
  rw [hcs, List.cons_append] at hnumber ⊢
  rw [parseScalar_number hc, hnumber]

/-- A string is read when what stands between its quotes is. -/
theorem readAs_str {inner : List Char} {s : PyStr}
    (h : ∀ rest, parseString (inner ++ '"' :: rest) = .ok (s, rest)) :
    ReadAs ('"' :: (inner ++ ['"'])) 0 (.str s) where
  opens := ⟨_, _, rfl, by unfold Opens; decide⟩
  reads fuel limit rest hfuel _ _ := by
    obtain ⟨fuel, rfl⟩ := Nat.exists_eq_add_one_of_ne_zero (Nat.ne_zero_of_lt hfuel)
    rw [List.cons_append, List.append_assoc, List.singleton_append, parseValue, h]
    rfl

/-! ### Arrays -/

section Items

variable {items : List (List Char × Json)} {d : ℕ}

/-- Texts joined with commas start as the first. -/
theorem exists_joinComma_eq_cons {ts : List (List Char)} {t : List Char} {c : Char}
    {cs : List Char} (ht : t = c :: cs) : ∃ ds, joinComma (t :: ts) = c :: ds := by
  cases ts with
  | nil => exact ⟨cs, ht⟩
  | cons u ts => exact ⟨cs ++ ',' :: joinComma (u :: ts), by rw [joinComma, ht]; rfl⟩

/-- **Arrays.**  Items that are read are read one after the other up to the closing bracket. -/
theorem parseItems_join (hne : items ≠ []) (hitems : ∀ e ∈ items, ReadAs e.1 d e.2)
    (fuel limit : ℕ) (rest : List Char)
    (hfuel : (joinComma (items.map Prod.fst)).length + 1 < fuel) (hdepth : d ≤ limit) :
    parseItems fuel limit (joinComma (items.map Prod.fst) ++ ']' :: rest)
      = .ok (items.map Prod.snd, rest) := by
  induction items generalizing fuel with
  | nil => exact absurd rfl hne
  | cons e items ih =>
    obtain ⟨fuel, rfl⟩ := Nat.exists_eq_add_one_of_ne_zero (Nat.ne_zero_of_lt hfuel)
    have hfirst := hitems e List.mem_cons_self
    cases items with
    | nil =>
      simp only [List.map_cons, List.map_nil, joinComma] at hfuel ⊢
      rw [parseItems, hfirst.reads fuel limit _ (by omega) hdepth (stops_cons (by simp)),
        Except.ok_bind]
      simp only [skipSpace_cons (show isJsonSpace ']' = false by decide)]
    | cons f items =>
      have hsplit : joinComma ((e :: f :: items).map Prod.fst)
          = e.1 ++ ',' :: joinComma ((f :: items).map Prod.fst) := rfl
      have hspace : skipSpace (joinComma ((f :: items).map Prod.fst) ++ ']' :: rest)
          = joinComma ((f :: items).map Prod.fst) ++ ']' :: rest := by
        obtain ⟨c, cs, hcs, hopen⟩ := (hitems f (by simp)).opens
        obtain ⟨ds, hds⟩ := exists_joinComma_eq_cons hcs
        rw [List.map_cons, hds, List.cons_append, skipSpace_cons hopen.1]
      rw [hsplit, List.length_append, List.length_cons] at hfuel
      have hrest := ih (by simp) (fun x hx => hitems x (List.mem_cons_of_mem _ hx)) fuel (by omega)
      rw [hsplit, List.append_assoc, List.cons_append, parseItems,
        hfirst.reads fuel limit _ (by omega) hdepth (stops_cons (by simp)), Except.ok_bind]
      simp only [skipSpace_cons (show isJsonSpace ',' = false by decide)]
      rw [hspace, hrest]
      rfl

theorem readAs_arr (hitems : ∀ e ∈ items, ReadAs e.1 d e.2) :
    ReadAs ('[' :: (joinComma (items.map Prod.fst) ++ [']'])) (d + 1)
      (.arr (items.map Prod.snd)) where
  opens := ⟨_, _, rfl, by unfold Opens; decide⟩
  reads fuel limit rest hfuel hdepth _ := by
    obtain ⟨fuel, rfl⟩ := Nat.exists_eq_add_one_of_ne_zero (Nat.ne_zero_of_lt hfuel)
    obtain ⟨limit, rfl⟩ := Nat.exists_eq_add_one_of_ne_zero (Nat.ne_zero_of_lt hdepth)
    rw [List.length_cons, List.length_append, List.length_singleton] at hfuel
    rw [List.cons_append, List.append_assoc, List.singleton_append]
    cases items with
    | nil =>
      rw [parseValue]
      simp only [List.map_nil, joinComma, List.nil_append,
        skipSpace_cons (show isJsonSpace ']' = false by decide)]
    | cons e items =>
      have hjoin := parseItems_join (by simp) hitems fuel limit rest (by omega) (by omega)
      obtain ⟨c, cs, hcs, hopen⟩ := (hitems e List.mem_cons_self).opens
      obtain ⟨ds, hds⟩ := exists_joinComma_eq_cons hcs
      rw [List.map_cons, hds, List.cons_append] at hjoin ⊢
      rw [parseValue, skipSpace_cons hopen.1]
      split
      · rename_i heq
        exact absurd (List.cons.inj heq).1 hopen.2.1
      · rw [hjoin]
        rfl

end Items

/-! ### Objects -/

/-- A member of an object: what stands between the quotes of its key, the key, the text of its
    value, and the value. -/
structure Member where
  inner : List Char
  key : PyStr
  text : List Char
  value : Json

/-- `"key":value`. -/
def Member.full (m : Member) : List Char := '"' :: (m.inner ++ '"' :: ':' :: m.text)

/-- The key and the value of a member are read. -/
structure Member.ReadsIn (d : ℕ) (m : Member) : Prop where
  key : ∀ rest, parseString (m.inner ++ '"' :: rest) = .ok (m.key, rest)
  value : ReadAs m.text d m.value

section Members

variable {members : List Member} {d : ℕ}

/-- **Objects.**  Members that are read are read one after the other up to the closing brace. -/
theorem parseMembers_join (hne : members ≠ []) (hmembers : ∀ m ∈ members, m.ReadsIn d)
    (fuel limit : ℕ) (rest : List Char)
    (hfuel : (joinComma (members.map Member.full)).length + 1 < fuel) (hdepth : d ≤ limit) :
    parseMembers fuel limit (joinComma (members.map Member.full) ++ '}' :: rest)
      = .ok (members.map fun m => (m.key, m.value), rest) := by
  induction members generalizing fuel with
  | nil => exact absurd rfl hne
  | cons m members ih =>
    obtain ⟨fuel, rfl⟩ := Nat.exists_eq_add_one_of_ne_zero (Nat.ne_zero_of_lt hfuel)
    obtain ⟨hkey, hvalue⟩ := hmembers m List.mem_cons_self
    cases members with
    | nil =>
      simp only [List.map_cons, List.map_nil, joinComma, Member.full, List.length_cons,
        List.length_append] at hfuel ⊢
      simp only [List.cons_append, List.append_assoc]
      rw [parseMembers, hkey, Except.ok_bind]
      simp only [skipSpace_cons (show isJsonSpace ':' = false by decide), hvalue.skipSpace]
      rw [hvalue.reads fuel limit _ (by omega) hdepth (stops_cons (by simp)), Except.ok_bind]
      simp only [skipSpace_cons (show isJsonSpace '}' = false by decide)]
    | cons n members =>
      have hsplit : joinComma ((m :: n :: members).map Member.full)
          = m.full ++ ',' :: joinComma ((n :: members).map Member.full) := rfl
      have hspace : skipSpace (joinComma ((n :: members).map Member.full) ++ '}' :: rest)
          = joinComma ((n :: members).map Member.full) ++ '}' :: rest := by
        obtain ⟨ds, hds⟩ := exists_joinComma_eq_cons (show n.full = '"' :: _ from rfl)
        rw [List.map_cons, hds, List.cons_append,
          skipSpace_cons (show isJsonSpace '"' = false by decide)]
      rw [hsplit, List.length_append, List.length_cons, Member.full] at hfuel
      simp only [List.length_cons, List.length_append] at hfuel
      have hrest := ih (by simp) (fun x hx => hmembers x (List.mem_cons_of_mem _ hx)) fuel
        (by omega)
      rw [hsplit, Member.full]
      simp only [List.cons_append, List.append_assoc]
      rw [parseMembers, hkey, Except.ok_bind]
      simp only [skipSpace_cons (show isJsonSpace ':' = false by decide), hvalue.skipSpace]
      rw [hvalue.reads fuel limit _ (by omega) hdepth (stops_cons (by simp)), Except.ok_bind]
      simp only [skipSpace_cons (show isJsonSpace ',' = false by decide)]
      rw [hspace, hrest]
      rfl

theorem readAs_obj (hmembers : ∀ m ∈ members, m.ReadsIn d) :
    ReadAs ('{' :: (joinComma (members.map Member.full) ++ ['}'])) (d + 1)
      (.obj (members.map fun m => (m.key, m.value))) where
  opens := ⟨_, _, rfl, by unfold Opens; decide⟩
  reads fuel limit rest hfuel hdepth _ := by
    obtain ⟨fuel, rfl⟩ := Nat.exists_eq_add_one_of_ne_zero (Nat.ne_zero_of_lt hfuel)
    obtain ⟨limit, rfl⟩ := Nat.exists_eq_add_one_of_ne_zero (Nat.ne_zero_of_lt hdepth)
    rw [List.length_cons, List.length_append, List.length_singleton] at hfuel
    rw [List.cons_append, List.append_assoc, List.singleton_append]
    cases members with
    | nil =>
      rw [parseValue]
      simp only [List.map_nil, joinComma, List.nil_append,
        skipSpace_cons (show isJsonSpace '}' = false by decide)]
    | cons m members =>
      have hjoin := parseMembers_join (by simp) hmembers fuel limit rest (by omega) (by omega)
      obtain ⟨ds, hds⟩ := exists_joinComma_eq_cons (show m.full = '"' :: _ from rfl)
      rw [List.map_cons, hds, List.cons_append] at hjoin ⊢
      rw [parseValue, skipSpace_cons (show isJsonSpace '"' = false by decide)]
      split
      · rename_i heq
        exact absurd (List.cons.inj heq).1 (by decide)
      · rw [hjoin]
        rfl

end Members

/-- A text that is read as a value, after white space and with a final line feed or not. -/
theorem ReadAs.loads_spaced {text : List Char} {d limit : ℕ} {j : Json} (h : ReadAs text d j)
    (hdepth : d ≤ limit) {lead tail : List Char} (hlead : ∀ c ∈ lead, isJsonSpace c = true)
    (htail : tail = [] ∨ tail = ['\n']) :
    Json.loads limit (lead ++ (text ++ tail)) = .ok j.dedup := by
  have hstops : Stops tail := by
    rcases htail with rfl | rfl
    · exact stops_nil
    · exact stops_cons (by simp)
  have hparse := h.reads (2 * (lead ++ (text ++ tail)).length + 2) limit tail
    (by rw [List.length_append, List.length_append]; omega) hdepth hstops
  have hspace : (Json.skipSpace tail).isEmpty = true := by
    rcases htail with rfl | rfl <;> decide
  have hskip : Json.skipSpace (lead ++ (text ++ tail)) = text ++ tail := by
    rw [Json.skipSpace, List.dropWhile_append_of_pos hlead]
    exact h.skipSpace tail
  rw [loads.eq_def]
  split
  · rename_i heq
    obtain ⟨c, cs, rfl, hopen⟩ := h.opens
    cases lead with
    | nil => exact absurd (List.cons.inj heq).1 hopen.2.2.2
    | cons c lead =>
      have hc := hlead c List.mem_cons_self
      rw [(List.cons.inj heq).1] at hc
      exact absurd hc (by decide)
  · rw [hskip, hparse, Except.ok_bind]
    simp only [hspace, if_true]

theorem ReadAs.loads {text : List Char} {d limit : ℕ} {j : Json} (h : ReadAs text d j)
    (hdepth : d ≤ limit) {tail : List Char} (htail : tail = [] ∨ tail = ['\n']) :
    Json.loads limit (text ++ tail) = .ok j.dedup := by
  have hlead : ∀ c ∈ ([] : List Char), isJsonSpace c = true := by simp
  exact h.loads_spaced hdepth hlead htail

/-! ### Canonical texts -/

/-- Sorting the members' texts is taking the texts of the sorted members. -/
theorem sortByKey_canonicalEntries (entries : List (PyStr × Json)) :
    (sortByKey (canonicalEntries entries)).map memberText
      = (sortByKey entries).map fun e => memberText (e.1, e.2.canonical) := by
  have hmap : canonicalEntries entries = entries.map fun e => (e.1, e.2.canonical) := by
    induction entries with
    | nil => rfl
    | cons e entries ih => rw [canonicalEntries, ih, List.map_cons]
  rw [hmap, sortByKey_map, List.map_map]
  rfl

theorem sortByKey_mapEntries (entries : List (PyStr × Json)) :
    sortByKey (mapEntries sortByKey entries)
      = (sortByKey entries).map fun e => (e.1, e.2.normalize) := by
  have hmap : mapEntries sortByKey entries = entries.map fun e => (e.1, e.2.normalize) := by
    induction entries with
    | nil => rfl
    | cons e entries ih => rw [mapEntries, ih, List.map_cons]; rfl
  rw [hmap, sortByKey_map]

theorem depthItems_le {items : List Json} {n : ℕ} (h : depthItems items ≤ n) :
    ∀ j ∈ items, j.depth ≤ n := by
  induction items with
  | nil => simp
  | cons j items ih =>
    rw [depthItems, Nat.max_le] at h
    exact List.forall_mem_cons.mpr ⟨h.1, ih h.2⟩

theorem depthEntries_le {entries : List (PyStr × Json)} {n : ℕ} (h : depthEntries entries ≤ n) :
    ∀ e ∈ entries, e.2.depth ≤ n := by
  induction entries with
  | nil => simp
  | cons e entries ih =>
    rw [depthEntries, Nat.max_le] at h
    exact List.forall_mem_cons.mpr ⟨h.1, ih h.2⟩

theorem canonicalItems_eq_map (items : List Json) :
    canonicalItems items = items.map canonical := by
  induction items with
  | nil => rfl
  | cons j items ih => rw [canonicalItems, ih, List.map_cons]

theorem mapItems_eq_map (f : List (PyStr × Json) → List (PyStr × Json)) (items : List Json) :
    mapItems f items = items.map (mapObjects f) := by
  induction items with
  | nil => rfl
  | cons j items ih => rw [mapItems, ih, List.map_cons]

/-- A member of a canonical text. -/
def canonicalMember (e : PyStr × Json) : Member :=
  ⟨e.1.flatMap escapePoint, e.1, e.2.canonical, e.2.normalize⟩

mutual
/-- **Values.**  The canonical text of an encodable value is read as the value with its keys
    sorted. -/
theorem readAs_canonical : ∀ j : Json, j.encodable = true →
    ReadAs j.canonical j.depth j.normalize
  | .null, _ | .bool true, _ | .bool false, _ => by
    apply readAs_scalar ⟨_, _, rfl, by unfold Opens; decide⟩
    intro rest _
    rfl
  | .int _, h => readAs_int h
  | .str _, h => readAs_str (parseString_stringText h)
  | .arr items, h => by
    have hitems := readAs_canonicalItems items h
    have htexts : canonicalItems items
        = (items.map fun j => (j.canonical, j.normalize)).map Prod.fst := by
      rw [List.map_map]
      exact canonicalItems_eq_map items
    have hvalues : (Json.arr items).normalize
        = .arr ((items.map fun j => (j.canonical, j.normalize)).map Prod.snd) := by
      rw [List.map_map]
      exact congrArg Json.arr (mapItems_eq_map _ items)
    rw [canonical, htexts, hvalues]
    apply readAs_arr
    intro e he
    obtain ⟨j, hj, rfl⟩ := List.mem_map.mp he
    exact (hitems j hj).mono (depthItems_le le_rfl j hj)
  | .obj entries, h => by
    have hentries := readAs_canonicalEntries entries h
    have hmembers : (sortByKey entries).map (fun e => memberText (e.1, e.2.canonical))
        = ((sortByKey entries).map canonicalMember).map Member.full := by
      rw [List.map_map]
      apply List.map_congr_left
      intro e _
      simp [memberText, stringText, canonicalMember, Member.full]
    have hvalues : (Json.obj entries).normalize
        = .obj (((sortByKey entries).map canonicalMember).map fun m => (m.key, m.value)) := by
      rw [normalize, mapObjects, sortByKey_mapEntries, List.map_map]
      rfl
    rw [canonical, sortByKey_canonicalEntries, hmembers, hvalues]
    apply readAs_obj
    intro m hm
    obtain ⟨e, he, rfl⟩ := List.mem_map.mp hm
    have he := (sortByKey_perm entries).mem_iff.mp he
    obtain ⟨hkey, hvalue⟩ := hentries e he
    exact ⟨parseString_stringText hkey, hvalue.mono (depthEntries_le le_rfl e he)⟩
theorem readAs_canonicalItems : ∀ items : List Json, encodableItems items = true →
    ∀ j ∈ items, ReadAs j.canonical j.depth j.normalize
  | [], _ => by simp
  | j :: items, h => by
    rw [encodableItems, Bool.and_eq_true] at h
    exact List.forall_mem_cons.mpr ⟨readAs_canonical j h.1, readAs_canonicalItems items h.2⟩
theorem readAs_canonicalEntries : ∀ entries : List (PyStr × Json),
    encodableEntries entries = true →
    ∀ e ∈ entries, isScalar e.1 = true ∧ ReadAs e.2.canonical e.2.depth e.2.normalize
  | [], _ => by simp
  | (k, v) :: entries, h => by
    rw [encodableEntries, Bool.and_eq_true, Bool.and_eq_true] at h
    exact List.forall_mem_cons.mpr
      ⟨⟨h.1.1, readAs_canonical v h.1.2⟩, readAs_canonicalEntries entries h.2⟩
end

/-- **Round trip.**  `json.loads` reads a canonical text, alone or with a final line feed, as the
    value with its keys sorted. -/
theorem loads_canonical {j : Json} (henc : j.encodable = true) (hkeys : j.uniqueKeys = true)
    {limit : ℕ} (hdepth : j.depth ≤ limit) {tail : List Char} (htail : tail = [] ∨ tail = ['\n']) :
    loads limit (j.canonical ++ tail) = .ok j.normalize := by
  rw [(readAs_canonical j henc).loads hdepth htail, Normal.dedup_eq (normal_normalize hkeys)]

/-! ### Reading back under any limit -/

/-- What the parser reads with some levels of nesting left, it reads with more. -/
theorem parse_limit_mono (fuel : ℕ) :
    (∀ {n m : ℕ} {cs : List Char} {r : Json × List Char}, n ≤ m →
        parseValue fuel n cs = .ok r → parseValue fuel m cs = .ok r)
      ∧ (∀ {n m : ℕ} {cs : List Char} {r : List Json × List Char}, n ≤ m →
        parseItems fuel n cs = .ok r → parseItems fuel m cs = .ok r)
      ∧ ∀ {n m : ℕ} {cs : List Char} {r : List (PyStr × Json) × List Char}, n ≤ m →
        parseMembers fuel n cs = .ok r → parseMembers fuel m cs = .ok r := by
  induction fuel with
  | zero =>
    refine ⟨?_, ?_, ?_⟩ <;>
      (intro n m cs r _ h; simp only [parseValue, parseItems, parseMembers, reduceCtorEq] at h)
  | succ fuel ih =>
    obtain ⟨ihValue, ihItems, ihMembers⟩ := ih
    refine ⟨?_, ?_, ?_⟩
    · intro n m cs r hle h
      cases cs with
      | nil => exact absurd h (by simp [parseValue, parseScalar, parseNumber, parseUnsigned])
      | cons c cs =>
        by_cases hquote : c = '"'
        · subst hquote
          rw [parseValue] at h ⊢
          exact h
        by_cases hbrace : c = '{'
        · subst hbrace
          cases n with
          | zero => cases h
          | succ n =>
            obtain ⟨m, rfl⟩ := Nat.exists_eq_add_one_of_ne_zero (show m ≠ 0 by omega)
            rw [parseValue] at h ⊢
            split at h
            · exact h
            · obtain ⟨x, hx, h⟩ := Except.bind_eq_ok.mp h
              rw [ihMembers (Nat.le_of_succ_le_succ hle) hx]
              exact h
        by_cases hbracket : c = '['
        · subst hbracket
          cases n with
          | zero => cases h
          | succ n =>
            obtain ⟨m, rfl⟩ := Nat.exists_eq_add_one_of_ne_zero (show m ≠ 0 by omega)
            rw [parseValue] at h ⊢
            split at h
            · exact h
            · obtain ⟨x, hx, h⟩ := Except.bind_eq_ok.mp h
              rw [ihItems (Nat.le_of_succ_le_succ hle) hx]
              exact h
        rw [parseValue_scalar hquote hbrace hbracket] at h ⊢
        exact h
    · intro n m cs r hle h
      rw [parseItems] at h ⊢
      obtain ⟨⟨j, rest⟩, hj, h⟩ := Except.bind_eq_ok.mp h
      rw [ihValue hle hj, Except.ok_bind]
      simp only at h ⊢
      split at h
      · exact h
      · obtain ⟨x, hx, h⟩ := Except.bind_eq_ok.mp h
        rw [ihItems hle hx]
        exact h
      · cases h
    · intro n m cs r hle h
      cases cs with
      | nil => cases h
      | cons c cs =>
        by_cases hquote : c = '"'
        · subst hquote
          rw [parseMembers] at h ⊢
          obtain ⟨⟨k, rest⟩, hk, h⟩ := Except.bind_eq_ok.mp h
          rw [hk, Except.ok_bind]
          simp only at h ⊢
          split at h
          · obtain ⟨⟨v, rest⟩, hv, h⟩ := Except.bind_eq_ok.mp h
            rw [ihValue hle hv, Except.ok_bind]
            simp only at h ⊢
            split at h
            · exact h
            · obtain ⟨x, hx, h⟩ := Except.bind_eq_ok.mp h
              rw [ihMembers hle hx]
              exact h
            · cases h
          · cases h
        · exact absurd h (by simp [parseMembers, hquote])

/-- Whatever limit a canonical text is read under, it is read as the value with its keys
    sorted. -/
theorem eq_normalize_of_loads {j v : Json} (henc : j.encodable = true)
    (hkeys : j.uniqueKeys = true) {limit : ℕ} {tail : List Char}
    (htail : tail = [] ∨ tail = ['\n']) (h : loads limit (j.canonical ++ tail) = .ok v) :
    v = j.normalize := by
  have hmore := loads_canonical henc hkeys (le_max_right limit j.depth) htail
  have hv : loads (max limit j.depth) (j.canonical ++ tail) = .ok v := by
    rw [loads.eq_def] at h ⊢
    split at h
    · cases h
    · obtain ⟨⟨w, rest⟩, hw, h⟩ := Except.bind_eq_ok.mp h
      rw [(parse_limit_mono _).1 (le_max_left limit j.depth) hw]
      exact h
  exact Except.ok.inj (hv.symm.trans hmore)

/-- What has been read has no key twice. -/
theorem uniqueKeys_of_loads {limit : ℕ} {text : List Char} {v : Json}
    (h : loads limit text = .ok v) : v.uniqueKeys = true := by
  rw [loads.eq_def] at h
  split at h
  · cases h
  · obtain ⟨⟨w, rest⟩, -, h⟩ := Except.bind_eq_ok.mp h
    simp only at h
    split at h
    · cases h
      exact uniqueKeys_dedup w
    · cases h

/-- The canonical text determines a normal value. -/
theorem canonical_injective {i j : Json} (hi : i.encodable = true) (hj : j.encodable = true)
    (hni : i.Normal = true) (hnj : j.Normal = true) (h : i.canonical = j.canonical) : i = j := by
  have hloadi := loads_canonical hi (normal_iff.mp hni).1 (le_max_left i.depth j.depth)
    (.inl rfl)
  have hloadj := loads_canonical hj (normal_iff.mp hnj).1 (le_max_right i.depth j.depth)
    (.inl rfl)
  rw [h, hloadj, Normal.normalize_eq hnj, Normal.normalize_eq hni] at hloadi
  exact (Except.ok.inj hloadi).symm

end Json

end Agora
