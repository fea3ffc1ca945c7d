import Mathlib.Data.List.Nodup
import Mathlib.Data.String.Basic

namespace Agora

/-!
# The Python values the program is written over

Exceptions by class (an `except` clause catches a class and its subclasses), dictionaries
built by a comprehension over a list (the last binding of a key wins), whitespace in the
sense of `str.strip`, and `uuid.UUID` by its canonical text.
-/

/-! ### Exceptions -/

/-! Literals of these types carry no proof of their own. -/

instance neZeroOne : @NeZero ℕ Zero.ofOfNat0 1 := ⟨by decide⟩
instance neZeroFive : @NeZero ℕ Zero.ofOfNat0 5 := ⟨by decide⟩
instance neZeroTen : @NeZero ℕ Zero.ofOfNat0 10 := ⟨by decide⟩
instance neZeroSixteen : @NeZero ℕ Zero.ofOfNat0 16 := ⟨by decide⟩
instance neZeroSixty : @NeZero ℕ Zero.ofOfNat0 60 := ⟨by decide⟩

/-- The exception classes that some `except` clause tells apart. -/
inductive ExceptionClass where
  | valueError
  | overflowError
  | arithmeticError
  | lookupError
  | referenceError
  | runtimeError
  | recursionError
  | typeError
  | attributeError
  | other
deriving DecidableEq, Repr

/-- A raised exception: its class and `str(exc)`. -/
structure PyException where
  cls : ExceptionClass
  message : String
deriving DecidableEq, Repr

/-- A computation that may raise. -/
abbrev Py := Except PyException

namespace PyException

def valueError (message : String) : PyException := ⟨.valueError, message⟩
def overflowError (message : String) : PyException := ⟨.overflowError, message⟩
def arithmeticError (message : String) : PyException := ⟨.arithmeticError, message⟩
def lookupError (message : String) : PyException := ⟨.lookupError, message⟩
def referenceError (message : String) : PyException := ⟨.referenceError, message⟩
def runtimeError (message : String) : PyException := ⟨.runtimeError, message⟩
def recursionError (message : String) : PyException := ⟨.recursionError, message⟩
def typeError (message : String) : PyException := ⟨.typeError, message⟩
def attributeError (message : String) : PyException := ⟨.attributeError, message⟩

/-- `except RuntimeError`: `RecursionError` is one of its subclasses. -/
def isRuntimeError (e : PyException) : Bool :=
  e.cls == .runtimeError || e.cls == .recursionError

end PyException

/-! ### Dictionaries -/

section Dict

variable {α κ : Type} [DecidableEq κ]

/-- `{key(a): a for a in l}.get(k)`: the last element of `l` with key `k`. -/
def dictGet (key : α → κ) (l : List α) (k : κ) : Option α :=
  l.reverse.find? (fun a => key a = k)

theorem dictGet_eq_none {key : α → κ} {l : List α} {k : κ} :
    dictGet key l k = none ↔ ∀ a ∈ l, key a ≠ k := by
  simp [dictGet, List.find?_eq_none]

theorem mem_of_dictGet {key : α → κ} {l : List α} {k : κ} {a : α}
    (h : dictGet key l k = some a) : a ∈ l ∧ key a = k := by
  refine ⟨by simpa using List.mem_of_find?_eq_some h, by simpa using List.find?_some h⟩

/-- With distinct keys the dictionary holds exactly the elements of the list. -/
theorem dictGet_eq_some {key : α → κ} {l : List α} (hkeys : (l.map key).Nodup) {k : κ} {a : α} :
    dictGet key l k = some a ↔ a ∈ l ∧ key a = k := by
  refine ⟨mem_of_dictGet, fun ⟨ha, hk⟩ => ?_⟩
  cases hget : dictGet key l k with
  | none => exact absurd hk (dictGet_eq_none.mp hget a ha)
  | some b =>
    obtain ⟨hb, hbk⟩ := mem_of_dictGet hget
    rw [List.inj_on_of_nodup_map hkeys hb ha (hbk.trans hk.symm)]

/-- With distinct keys the dictionary is the first match as well. -/
theorem dictGet_eq_find? {key : α → κ} {l : List α} (hkeys : (l.map key).Nodup) (k : κ) :
    dictGet key l k = l.find? (fun a => key a = k) := by
  cases hfind : l.find? (fun a => key a = k) with
  | none => exact dictGet_eq_none.mpr (by simpa [List.find?_eq_none] using hfind)
  | some a =>
    exact (dictGet_eq_some hkeys).mpr
      ⟨List.mem_of_find?_eq_some hfind, by simpa using List.find?_some hfind⟩

/-- `d[key(a)] = a`, for a dictionary that is the list of its values. -/
def keyedSet (key : α → κ) (d : List α) (a : α) : List α :=
  if d.any (key · = key a) then d.map fun b => if key b = key a then a else b else d ++ [a]

/-- `d.update((key(a), a) for a in items)`. -/
def keyedUpdate (key : α → κ) (d items : List α) : List α := items.foldl (keyedSet key) d

theorem mem_keyedSet {key : α → κ} {d : List α} {a b : α} :
    b ∈ keyedSet key d a ↔ b = a ∨ b ∈ d ∧ key b ≠ key a := by
  unfold keyedSet
  split
  · rename_i hkey
    rw [List.any_eq_true] at hkey
    obtain ⟨c, hc, hca⟩ := hkey
    simp only [List.mem_map]
    constructor
    · rintro ⟨x, hx, rfl⟩
      by_cases hxa : key x = key a <;> simp [hxa, hx]
    · rintro (rfl | ⟨hb, hba⟩)
      · exact ⟨c, hc, if_pos (of_decide_eq_true hca)⟩
      · exact ⟨b, hb, if_neg hba⟩
  · rename_i hkey
    have hnone : ∀ c ∈ d, key c ≠ key a := by simpa using hkey
    rw [List.mem_append, List.mem_singleton]
    constructor
    · rintro (hb | rfl)
      · exact .inr ⟨hb, hnone b hb⟩
      · exact .inl rfl
    · rintro (rfl | ⟨hb, -⟩)
      · exact .inr rfl
      · exact .inl hb

/-- The value that an assignment leaves under a key. -/
theorem find?_keyedSet {key : α → κ} {d : List α} {a : α} {k : κ} :
    (keyedSet key d a).find? (key · = k) = if key a = k then some a else d.find? (key · = k) := by
  by_cases hk : key a = k
  · subst hk
    rw [if_pos rfl]
    unfold keyedSet
    split
    · rename_i hany
      induction d with
      | nil => cases hany
      | cons b d ih =>
        by_cases hb : key b = key a
        · simp [hb]
        · rw [List.any_cons, decide_eq_false hb, Bool.false_or] at hany
          simpa [hb] using ih hany
    · rename_i hnone
      have hfresh : d.find? (key · = key a) = none := by simpa [List.find?_eq_none] using hnone
      rw [List.find?_append, hfresh]
      simp
  · rw [if_neg hk]
    have hother : (d.map fun b => if key b = key a then a else b).find? (key · = k)
        = d.find? (key · = k) := by
      induction d with
      | nil => rfl
      | cons b d ih =>
        rw [List.map_cons, List.find?_cons, List.find?_cons, ih]
        by_cases hb : key b = key a
        · simp [hb, hk]
        · simp [hb]
    unfold keyedSet
    split
    · exact hother
    · simp [List.find?_append, hk]

/-- An assignment of what is there changes nothing. -/
theorem keyedSet_of_mem {key : α → κ} {d : List α} {a : α} (ha : a ∈ d)
    (h : ∀ b ∈ d, key b = key a → b = a) : keyedSet key d a = d := by
  unfold keyedSet
  rw [if_pos (List.any_eq_true.mpr ⟨a, ha, decide_eq_true rfl⟩)]
  refine (List.map_congr_left fun b hb => ?_).trans (List.map_id d)
  by_cases hkey : key b = key a
  · rw [if_pos hkey, h b hb hkey, id]
  · rw [if_neg hkey, id]

theorem nodup_keyedSet {key : α → κ} {d : List α} (h : (d.map key).Nodup) (a : α) :
    ((keyedSet key d a).map key).Nodup := by
  unfold keyedSet
  split
  · have hsame : (d.map fun b => if key b = key a then a else b).map key = d.map key := by
      rw [List.map_map]
      refine List.map_congr_left fun b _ => ?_
      by_cases hb : key b = key a <;> simp [hb]
    rw [hsame]
    exact h
  · rename_i hkey
    have hnone : ∀ c ∈ d, key c ≠ key a := by simpa using hkey
    rw [List.map_append, List.nodup_append_comm]
    exact List.nodup_cons.mpr ⟨by simpa using hnone, h⟩

theorem nodup_keyedUpdate {key : α → κ} {d : List α} (h : (d.map key).Nodup) (items : List α) :
    ((keyedUpdate key d items).map key).Nodup := by
  induction items generalizing d with
  | nil => exact h
  | cons a items ih => exact ih (nodup_keyedSet h a)

/-- An update with new keys adds the items at the end. -/
theorem keyedUpdate_of_nodup {key : α → κ} {d items : List α}
    (h : ((d ++ items).map key).Nodup) : keyedUpdate key d items = d ++ items := by
  induction items generalizing d with
  | nil => simp [keyedUpdate]
  | cons a items ih =>
    have hset : keyedSet key d a = d ++ [a] := by
      unfold keyedSet
      rw [if_neg]
      rw [List.map_append, List.map_cons] at h
      have hother := (List.nodup_append.mp h).2.2
      simpa using fun b hb => hother (key b) (List.mem_map_of_mem hb) (key a) List.mem_cons_self
    show keyedUpdate key (keyedSet key d a) items = _
    rw [hset, ih (by simpa using h), List.append_assoc, List.singleton_append]

/-- Where the values of a key agree, an update adds the items. -/
theorem mem_keyedUpdate {key : α → κ} {d items : List α}
    (hkey : ∀ a ∈ d ++ items, ∀ b ∈ d ++ items, key a = key b → a = b) {b : α} :
    b ∈ keyedUpdate key d items ↔ b ∈ d ∨ b ∈ items := by
  induction items generalizing d with
  | nil => simp [keyedUpdate]
  | cons a items ih =>
    have hset : ∀ c, c ∈ keyedSet key d a ↔ c ∈ d ∨ c = a := by
      intro c
      rw [mem_keyedSet]
      by_cases hca : c = a
      · simp [hca]
      · have hother : c ∈ d → key c ≠ key a := fun hc hsame =>
          hca (hkey c (by simp [hc]) a (by simp) hsame)
        simp only [hca, false_or, or_false]
        exact ⟨fun h => h.1, fun h => ⟨h, hother h⟩⟩
    show b ∈ keyedUpdate key (keyedSet key d a) items ↔ _
    have hsub : ∀ c ∈ keyedSet key d a ++ items, c ∈ d ++ a :: items := by
      intro c hc
      rcases List.mem_append.mp hc with hc | hc
      · rcases (hset c).mp hc with hc | rfl <;> simp [*]
      · simp [hc]
    rw [ih fun x hx y hy => hkey x (hsub x hx) y (hsub y hy), hset, List.mem_cons, or_assoc]

end Dict

/-! ### Text -/

/-- The characters `str.strip` removes. -/
def isSpace (c : Char) : Bool :=
  let n := c.toNat
  (0x09 ≤ n && n ≤ 0x0D) || (0x1C ≤ n && n ≤ 0x20) || n == 0x85 || n == 0xA0 || n == 0x1680
    || (0x2000 ≤ n && n ≤ 0x200A) || n == 0x2028 || n == 0x2029 || n == 0x202F || n == 0x205F
    || n == 0x3000

/-- `not s.strip()`. -/
def isBlank (s : String) : Bool := s.toList.all isSpace

/-- A lower-case hexadecimal digit. -/
def isHexLower (c : Char) : Bool := ('0' ≤ c && c ≤ '9') || ('a' ≤ c && c ≤ 'f')

/-! ### UUIDs -/

/-- The text `str` gives for a UUID: 8-4-4-4-12 lower-case hexadecimal digits. -/
def isCanonicalUuid (s : String) : Bool :=
  let cs := s.toList
  cs.length == 36 && cs.zipIdx.all fun (c, i) =>
    if i = 8 ∨ i = 13 ∨ i = 18 ∨ i = 23 then c == '-' else isHexLower c

/-- `uuid.UUID`, carried by its canonical text.  The text determines the 128 bits, and the
    byte order of two UUIDs is the order of their texts. -/
@[ext]
structure UUID where
  text : String
  canonical : isCanonicalUuid text = true
deriving DecidableEq

instance : LinearOrder UUID := LinearOrder.lift' UUID.text fun _ _ => UUID.ext

end Agora
