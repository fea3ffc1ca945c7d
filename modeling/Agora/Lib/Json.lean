import Agora.Lib.Python
import Mathlib.Data.List.Induction
import Mathlib.Data.List.Sort
import Mathlib.Data.List.Lex

namespace Agora

/-!
# JSON values and their canonical text

A JSON value as `json.loads` returns it: integers of any size, numbers with a fraction or an
exponent kept apart (`float`), strings of code points among which lone surrogates may occur,
objects as lists of entries.  `Json.canonical` is the canonical text with object keys in
UTF-16 order.

Two transformations of the objects in a value matter here and share their lemmas
(`mapObjects`): `dedup` builds the dictionaries (`uniqueKeys_dedup`), `normalize` sorts the
keys (`sortedKeys_normalize`).  A `Normal` value is left alone by both.
-/

/-! ### Strings -/

/-- A code point of a Python string: a Unicode scalar value or a lone surrogate. -/
inductive CodePoint where
  | scalar (c : Char)
  | surrogate (n : Fin 0x800)
deriving DecidableEq

/-- A Python string. -/
abbrev PyStr := List CodePoint

instance lawfulBEqPyStr : LawfulBEq PyStr := inferInstance

/-- The Python string of a text without surrogates. -/
def PyStr.ofChars (cs : List Char) : PyStr := cs.map .scalar

/-- The Python string of a string literal. -/
def PyStr.ofString (s : String) : PyStr := PyStr.ofChars s.toList

/-- The characters of a string, `none` when it has a surrogate. -/
def PyStr.chars? : PyStr → Option (List Char)
  | [] => some []
  | .scalar c :: rest => (PyStr.chars? rest).map (c :: ·)
  | .surrogate _ :: _ => none

@[simp] theorem PyStr.chars?_ofChars (cs : List Char) : PyStr.chars? (PyStr.ofChars cs) = some cs := by
  induction cs with
  | nil => rfl
  | cons c cs ih =>
    simp only [PyStr.ofChars, List.map_cons, PyStr.chars?] at ih ⊢
    rw [ih, Option.map_some]

theorem PyStr.eq_ofChars_of_chars? {s : PyStr} {cs : List Char} (h : PyStr.chars? s = some cs) :
    s = PyStr.ofChars cs := by
  induction s generalizing cs with
  | nil => cases h; rfl
  | cons p s ih =>
    cases p with
    | scalar c =>
      obtain ⟨ds, hds, rfl⟩ := Option.map_eq_some_iff.mp h
      rw [ih hds]
      rfl
    | surrogate n => cases h

theorem PyStr.ofString_injective : Function.Injective PyStr.ofString := by
  intro s t h
  have hchars := congrArg PyStr.chars? h
  simp only [PyStr.ofString, PyStr.chars?_ofChars, Option.some.injEq] at hchars
  exact String.ext hchars

/-- The UTF-16 code units of a code point. -/
def CodePoint.utf16 : CodePoint → List ℕ
  | .scalar c =>
    if c.toNat < 0x10000 then [c.toNat]
    else [0xD800 + (c.toNat - 0x10000) / 0x400, 0xDC00 + (c.toNat - 0x10000) % 0x400]
  | .surrogate n => [0xD800 + n.val]

/-- The sort key of an object key.  Comparing code units is comparing big-endian bytes. -/
def utf16Key (s : PyStr) : List ℕ := s.flatMap CodePoint.utf16

/-- The order of object keys. -/
def keyLe (a b : PyStr) : Bool := decide (utf16Key a ≤ utf16Key b)

/-! ### Dictionaries as lists of entries -/

section Entries

variable {α : Type}

/-- `d[k] = v`: an existing key keeps its place. -/
def dictSet (d : List (PyStr × α)) (k : PyStr) (v : α) : List (PyStr × α) :=
  if k ∈ d.map Prod.fst then d.map fun e => if e.1 = k then (k, v) else e else d ++ [(k, v)]

/-- `dict(pairs)`. -/
def dictOfPairs (pairs : List (PyStr × α)) : List (PyStr × α) :=
  pairs.foldl (fun d e => dictSet d e.1 e.2) []

/-- `sorted(d.items(), key=...)` by the order of the keys. -/
def sortByKey (entries : List (PyStr × α)) : List (PyStr × α) :=
  entries.insertionSort fun a b => keyLe a.1 b.1 = true

theorem sortByKey_perm (entries : List (PyStr × α)) : (sortByKey entries).Perm entries :=
  List.perm_insertionSort _ _

theorem keyLe_total (a b : PyStr) : keyLe a b = true ∨ keyLe b a = true := by
  simp only [keyLe, decide_eq_true_eq]
  exact le_total _ _

theorem keyLe_trans {a b c : PyStr} (hab : keyLe a b = true) (hbc : keyLe b c = true) :
    keyLe a c = true := by
  simp only [keyLe, decide_eq_true_eq] at *
  exact le_trans hab hbc

/-- The sorted entries are in key order. -/
theorem pairwise_sortByKey (entries : List (PyStr × α)) :
    (sortByKey entries).Pairwise fun a b => keyLe a.1 b.1 = true := by
  have : Std.Total fun a b : PyStr × α => keyLe a.1 b.1 = true := ⟨fun _ _ => keyLe_total _ _⟩
  have : IsTrans (PyStr × α) fun a b => keyLe a.1 b.1 = true := ⟨fun _ _ _ => keyLe_trans⟩
  exact List.pairwise_insertionSort _ entries

/-- Sorting by key commutes with a map of the values. -/
theorem sortByKey_map {β : Type} (g : α → β) (entries : List (PyStr × α)) :
    sortByKey (entries.map fun e => (e.1, g e.2)) = (sortByKey entries).map fun e => (e.1, g e.2) :=
  (List.map_insertionSort (fun a b : PyStr × α => keyLe a.1 b.1 = true)
    (fun a b : PyStr × β => keyLe a.1 b.1 = true) (fun e => (e.1, g e.2)) entries
    fun _ _ _ _ => Iff.rfl).symm

/-- The keys of a dictionary do not change when one of its values is set. -/
theorem keys_dictSet (d : List (PyStr × α)) (k : PyStr) (v : α) :
    (dictSet d k v).map Prod.fst
      = if k ∈ d.map Prod.fst then d.map Prod.fst else d.map Prod.fst ++ [k] := by
  unfold dictSet
  split
  case isTrue =>
    rw [List.map_map]
    refine List.map_congr_left fun e _ => ?_
    by_cases he : e.1 = k <;> simp [he]
  case isFalse => simp

theorem nodup_keys_dictSet {d : List (PyStr × α)} (hd : (d.map Prod.fst).Nodup) (k : PyStr)
    (v : α) : ((dictSet d k v).map Prod.fst).Nodup := by
  rw [keys_dictSet]
  split
  case isTrue => exact hd
  case isFalse hk => exact hd.append (List.nodup_singleton k) (by simpa using hk)

/-- A dictionary has distinct keys. -/
theorem nodup_keys_dictOfPairs (pairs : List (PyStr × α)) :
    ((dictOfPairs pairs).map Prod.fst).Nodup := by
  suffices h : ∀ d : List (PyStr × α), (d.map Prod.fst).Nodup →
      ((pairs.foldl (fun d e => dictSet d e.1 e.2) d).map Prod.fst).Nodup from h [] List.nodup_nil
  induction pairs with
  | nil => exact fun d hd => hd
  | cons e pairs ih => exact fun d hd => ih _ (nodup_keys_dictSet hd e.1 e.2)

/-- Pairs with distinct keys are a dictionary already. -/
theorem dictOfPairs_eq_self {pairs : List (PyStr × α)} (h : (pairs.map Prod.fst).Nodup) :
    dictOfPairs pairs = pairs := by
  suffices hfold : ∀ d : List (PyStr × α), ((d ++ pairs).map Prod.fst).Nodup →
      pairs.foldl (fun d e => dictSet d e.1 e.2) d = d ++ pairs from hfold [] h
  clear h
  induction pairs with
  | nil => simp
  | cons e pairs ih =>
    intro d hd
    have hnew : e.1 ∉ d.map Prod.fst := by
      rw [List.map_append, List.map_cons] at hd
      exact fun hmem => (List.nodup_append.mp hd).2.2 _ hmem _ List.mem_cons_self rfl
    rw [List.foldl_cons, dictSet, if_neg hnew, ih _ (by simpa using hd)]
    simp

/-- A dictionary built from pairs has no other values than the pairs. -/
theorem mem_dictSet {d : List (PyStr × α)} {k : PyStr} {v : α} {e : PyStr × α}
    (h : e ∈ dictSet d k v) : e ∈ d ∨ e = (k, v) := by
  unfold dictSet at h
  split at h
  case isTrue =>
    obtain ⟨e', he', rfl⟩ := List.mem_map.mp h
    split
    case isTrue => exact .inr rfl
    case isFalse => exact .inl he'
  case isFalse => simpa using h

theorem mem_dictOfPairs {pairs : List (PyStr × α)} {e : PyStr × α} (h : e ∈ dictOfPairs pairs) :
    e ∈ pairs := by
  suffices hfold : ∀ d : List (PyStr × α),
      e ∈ pairs.foldl (fun d e => dictSet d e.1 e.2) d → e ∈ d ∨ e ∈ pairs from
    (hfold [] h).resolve_left List.not_mem_nil
  clear h
  induction pairs with
  | nil => exact fun d hd => .inl hd
  | cons f pairs ih =>
    intro d hd
    rcases ih _ hd with hmem | hmem
    · rcases mem_dictSet hmem with hmem | rfl
      · exact .inl hmem
      · exact .inr List.mem_cons_self
    · exact .inr (List.mem_cons_of_mem _ hmem)

theorem mem_dictSet_iff {d : List (PyStr × α)} {k : PyStr} {v : α} {e : PyStr × α} :
    e ∈ dictSet d k v ↔ e = (k, v) ∨ e ∈ d ∧ e.1 ≠ k := by
  unfold dictSet
  split
  case isTrue hk =>
    rw [List.mem_map]
    constructor
    · rintro ⟨e', he', rfl⟩
      by_cases hkey : e'.1 = k
      · rw [if_pos hkey]
        exact .inl rfl
      · rw [if_neg hkey]
        exact .inr ⟨he', hkey⟩
    · rintro (rfl | ⟨he, hkey⟩)
      · obtain ⟨e', he', rfl⟩ := List.mem_map.mp hk
        exact ⟨e', he', if_pos rfl⟩
      · exact ⟨e, he, if_neg hkey⟩
  case isFalse hk =>
    rw [List.mem_append, List.mem_singleton]
    constructor
    · rintro (he | rfl)
      · refine .inr ⟨he, ?_⟩
        rintro rfl
        exact hk (List.mem_map_of_mem he)
      · exact .inl rfl
    · rintro (rfl | ⟨he, -⟩)
      · exact .inr rfl
      · exact .inl he

/-- A dictionary of pairs has the last pair of each key. -/
theorem mem_dictOfPairs_iff {pairs : List (PyStr × α)} {e : PyStr × α} :
    e ∈ dictOfPairs pairs ↔ pairs.reverse.find? (fun f => decide (f.1 = e.1)) = some e := by
  induction pairs using List.reverseRecOn with
  | nil => simp [dictOfPairs]
  | append_singleton pairs f ih =>
    have hset : dictOfPairs (pairs ++ [f]) = dictSet (dictOfPairs pairs) f.1 f.2 := by
      simp [dictOfPairs]
    rw [hset, mem_dictSet_iff, ih, List.reverse_append, List.reverse_singleton,
      List.singleton_append]
    by_cases hkey : f.1 = e.1
    · have hfound : (f :: pairs.reverse).find? (fun f => decide (f.1 = e.1)) = some f :=
        List.find?_cons_of_pos (decide_eq_true hkey)
      rw [hfound, Option.some.injEq]
      constructor
      · rintro (rfl | ⟨-, hne⟩)
        · rfl
        · exact absurd hkey.symm hne
      · rintro rfl
        exact .inl rfl
    · rw [List.find?_cons_of_neg (by simpa using hkey)]
      constructor
      · rintro (rfl | ⟨he, -⟩)
        · exact absurd rfl hkey
        · exact he
      · intro he
        exact .inr ⟨he, fun h => hkey h.symm⟩

end Entries

/-! ### Values -/

/-- A JSON value.  `float` is a number written with a fraction or an exponent; it stands for
    `mantissa * 10 ^ exponent` before rounding. -/
inductive Json where
  | null
  | bool (b : Bool)
  | int (n : ℤ)
  | float (mantissa exponent : ℤ)
  | str (s : PyStr)
  | arr (items : List Json)
  | obj (entries : List (PyStr × Json))

namespace Json

/-- A string without surrogates. -/
def text (s : String) : Json := .str (PyStr.ofString s)

/-! ### Transforming the objects in a value -/

mutual
/-- Apply `f` to the entries of every object, from the inside out. -/
def mapObjects (f : List (PyStr × Json) → List (PyStr × Json)) : Json → Json
  | .arr items => .arr (mapItems f items)
  | .obj entries => .obj (f (mapEntries f entries))
  | j => j
def mapItems (f : List (PyStr × Json) → List (PyStr × Json)) : List Json → List Json
  | [] => []
  | j :: items => mapObjects f j :: mapItems f items
def mapEntries (f : List (PyStr × Json) → List (PyStr × Json)) :
    List (PyStr × Json) → List (PyStr × Json)
  | [] => []
  | (k, v) :: entries => (k, mapObjects f v) :: mapEntries f entries
end

mutual
/-- The keys of every object satisfy `p`. -/
def allObjects (p : List PyStr → Bool) : Json → Bool
  | .arr items => allItems p items
  | .obj entries => p (entries.map Prod.fst) && allEntries p entries
  | _ => true
def allItems (p : List PyStr → Bool) : List Json → Bool
  | [] => true
  | j :: items => allObjects p j && allItems p items
def allEntries (p : List PyStr → Bool) : List (PyStr × Json) → Bool
  | [] => true
  | (_, v) :: entries => allObjects p v && allEntries p entries
end

section Objects

variable {f : List (PyStr × Json) → List (PyStr × Json)} {p q : List PyStr → Bool}

@[simp] theorem keys_mapEntries (entries : List (PyStr × Json)) :
    (mapEntries f entries).map Prod.fst = entries.map Prod.fst := by
  induction entries with
  | nil => rfl
  | cons e entries ih => rw [mapEntries, List.map_cons, List.map_cons, ih]

theorem allEntries_iff {entries : List (PyStr × Json)} :
    allEntries p entries = true ↔ ∀ e ∈ entries, allObjects p e.2 = true := by
  induction entries with
  | nil => simp [allEntries]
  | cons e entries ih => simp [allEntries, ih]

mutual
/-- A transformation that leaves entries with `p` keys alone leaves such values alone. -/
theorem mapObjects_eq_self (hf : ∀ es, p (es.map Prod.fst) = true → f es = es) :
    ∀ j : Json, allObjects p j = true → mapObjects f j = j
  | .null, _ | .bool _, _ | .int _, _ | .float _ _, _ | .str _, _ => rfl
  | .arr items, h => by
    rw [allObjects] at h
    rw [mapObjects, mapItems_eq_self hf items h]
  | .obj entries, h => by
    rw [allObjects, Bool.and_eq_true] at h
    rw [mapObjects, mapEntries_eq_self hf entries h.2, hf entries h.1]
theorem mapItems_eq_self (hf : ∀ es, p (es.map Prod.fst) = true → f es = es) :
    ∀ items : List Json, allItems p items = true → mapItems f items = items
  | [], _ => rfl
  | j :: items, h => by
    rw [allItems, Bool.and_eq_true] at h
    rw [mapItems, mapObjects_eq_self hf j h.1, mapItems_eq_self hf items h.2]
theorem mapEntries_eq_self (hf : ∀ es, p (es.map Prod.fst) = true → f es = es) :
    ∀ entries : List (PyStr × Json), allEntries p entries = true → mapEntries f entries = entries
  | [], _ => rfl
  | (k, v) :: entries, h => by
    rw [allEntries, Bool.and_eq_true] at h
    rw [mapEntries, mapObjects_eq_self hf v h.1, mapEntries_eq_self hf entries h.2]
end

mutual
/-- A transformation that turns `q` keys into `p` keys does so in every object. -/
theorem allObjects_mapObjects (hsub : ∀ es, ∀ e ∈ f es, e ∈ es)
    (hf : ∀ es, q (es.map Prod.fst) = true → p ((f es).map Prod.fst) = true) :
    ∀ j : Json, allObjects q j = true → allObjects p (mapObjects f j) = true
  | .null, _ | .bool _, _ | .int _, _ | .float _ _, _ | .str _, _ => rfl
  | .arr items, h => by
    rw [allObjects] at h
    rw [mapObjects, allObjects]
    exact allItems_mapItems hsub hf items h
  | .obj entries, h => by
    rw [allObjects, Bool.and_eq_true] at h
    have hkeys : q ((mapEntries f entries).map Prod.fst) = true := by
      rw [keys_mapEntries]
      exact h.1
    have hvalues := allEntries_iff.mp (allEntries_mapEntries hsub hf entries h.2)
    rw [mapObjects, allObjects, Bool.and_eq_true]
    exact ⟨hf _ hkeys, allEntries_iff.mpr fun e he => hvalues e (hsub _ e he)⟩
theorem allItems_mapItems (hsub : ∀ es, ∀ e ∈ f es, e ∈ es)
    (hf : ∀ es, q (es.map Prod.fst) = true → p ((f es).map Prod.fst) = true) :
    ∀ items : List Json, allItems q items = true → allItems p (mapItems f items) = true
  | [], _ => rfl
  | j :: items, h => by
    rw [allItems, Bool.and_eq_true] at h
    rw [mapItems, allItems, allObjects_mapObjects hsub hf j h.1,
      allItems_mapItems hsub hf items h.2, Bool.true_and]
theorem allEntries_mapEntries (hsub : ∀ es, ∀ e ∈ f es, e ∈ es)
    (hf : ∀ es, q (es.map Prod.fst) = true → p ((f es).map Prod.fst) = true) :
    ∀ entries : List (PyStr × Json),
      allEntries q entries = true → allEntries p (mapEntries f entries) = true
  | [], _ => rfl
  | (k, v) :: entries, h => by
    rw [allEntries, Bool.and_eq_true] at h
    rw [mapEntries, allEntries, allObjects_mapObjects hsub hf v h.1,
      allEntries_mapEntries hsub hf entries h.2, Bool.true_and]
end

mutual
theorem allObjects_and : ∀ j : Json,
    allObjects (fun ks => p ks && q ks) j = (allObjects p j && allObjects q j)
  | .null | .bool _ | .int _ | .float _ _ | .str _ => rfl
  | .arr items => by
    rw [allObjects, allObjects, allObjects]
    exact allItems_and items
  | .obj entries => by
    rw [allObjects, allObjects, allObjects, allEntries_and entries]
    ac_rfl
theorem allItems_and : ∀ items : List Json,
    allItems (fun ks => p ks && q ks) items = (allItems p items && allItems q items)
  | [] => rfl
  | j :: items => by
    rw [allItems, allItems, allItems, allObjects_and j, allItems_and items]
    ac_rfl
theorem allEntries_and : ∀ entries : List (PyStr × Json),
    allEntries (fun ks => p ks && q ks) entries = (allEntries p entries && allEntries q entries)
  | [] => rfl
  | (_, v) :: entries => by
    rw [allEntries, allEntries, allEntries, allObjects_and v, allEntries_and entries]
    ac_rfl
end

mutual
theorem allObjects_true : ∀ j : Json, allObjects (fun _ => true) j = true
  | .null | .bool _ | .int _ | .float _ _ | .str _ => rfl
  | .arr items => by rw [allObjects, allItems_true items]
  | .obj entries => by rw [allObjects, allEntries_true entries, Bool.and_true]
theorem allItems_true : ∀ items : List Json, allItems (fun _ => true) items = true
  | [] => rfl
  | j :: items => by rw [allItems, allObjects_true j, allItems_true items, Bool.and_true]
theorem allEntries_true : ∀ entries : List (PyStr × Json),
    allEntries (fun _ => true) entries = true
  | [] => rfl
  | (_, v) :: entries => by
    rw [allEntries, allObjects_true v, allEntries_true entries, Bool.and_true]
end

end Objects

/-! ### Dictionaries and key order -/

/-- The value with every object read as a dictionary. -/
def dedup : Json → Json := mapObjects dictOfPairs

/-- The value with the keys of every object sorted. -/
def normalize : Json → Json := mapObjects sortByKey

/-- The keys of every object are distinct. -/
def uniqueKeys : Json → Bool := allObjects fun ks => decide ks.Nodup

/-- The keys of every object are sorted. -/
def sortedKeys : Json → Bool := allObjects fun ks => decide (ks.Pairwise fun a b => keyLe a b = true)

/-- Every object is a dictionary with sorted keys. -/
def Normal (j : Json) : Bool :=
  allObjects (fun ks => decide ks.Nodup && decide (ks.Pairwise fun a b => keyLe a b = true)) j

theorem normal_iff {j : Json} : j.Normal = true ↔ j.uniqueKeys = true ∧ j.sortedKeys = true := by
  rw [Normal, allObjects_and, Bool.and_eq_true]
  rfl

/-- An object with distinct keys, whose values are all right. -/
theorem uniqueKeys_obj {entries : List (PyStr × Json)} (keys : List String)
    (hkeys : entries.map Prod.fst = keys.map PyStr.ofString)
    (hdistinct : (keys.map PyStr.ofString).Nodup) (h : ∀ e ∈ entries, e.2.uniqueKeys = true) :
    (obj entries).uniqueKeys = true := by
  rw [uniqueKeys, allObjects, Bool.and_eq_true, decide_eq_true_eq, allEntries_iff,
    hkeys]
  exact ⟨hdistinct, h⟩

theorem uniqueKeys_arr {items : List Json} (h : ∀ j ∈ items, j.uniqueKeys = true) :
    (arr items).uniqueKeys = true := by
  rw [uniqueKeys, allObjects]
  induction items with
  | nil => rfl
  | cons j items ih =>
    obtain ⟨hj, hitems⟩ := List.forall_mem_cons.mp h
    rw [allItems, ih hitems, Bool.and_true]
    exact hj

@[simp] theorem uniqueKeys_text (s : String) : (text s).uniqueKeys = true := rfl

@[simp] theorem uniqueKeys_int (n : ℤ) : (int n).uniqueKeys = true := rfl

theorem uniqueKeys_dedup (j : Json) : j.dedup.uniqueKeys = true :=
  allObjects_mapObjects (fun _ _ => mem_dictOfPairs)
    (fun es _ => decide_eq_true (nodup_keys_dictOfPairs es)) j (allObjects_true j)

theorem dedup_eq_self {j : Json} (h : j.uniqueKeys = true) : j.dedup = j :=
  mapObjects_eq_self (fun _ hes => dictOfPairs_eq_self (of_decide_eq_true hes)) j h

theorem uniqueKeys_normalize {j : Json} (h : j.uniqueKeys = true) : j.normalize.uniqueKeys = true :=
  allObjects_mapObjects (fun es _ => (sortByKey_perm es).mem_iff.mp)
    (fun es hes => decide_eq_true
      (((sortByKey_perm es).map Prod.fst).nodup_iff.mpr (of_decide_eq_true hes))) j h

theorem sortedKeys_normalize (j : Json) : j.normalize.sortedKeys = true := by
  refine allObjects_mapObjects (fun es _ => (sortByKey_perm es).mem_iff.mp)
    (fun es _ => decide_eq_true ?_) j (allObjects_true j)
  rw [List.pairwise_map]
  exact pairwise_sortByKey es

theorem normalize_eq_self {j : Json} (h : j.sortedKeys = true) : j.normalize = j := by
  refine mapObjects_eq_self (fun es hes => ?_) j h
  have hsorted := of_decide_eq_true hes
  rw [List.pairwise_map] at hsorted
  exact hsorted.insertionSort_eq

/-- Sorting the keys of dictionaries gives a normal value. -/
theorem normal_normalize {j : Json} (h : j.uniqueKeys = true) : j.normalize.Normal = true :=
  normal_iff.mpr ⟨uniqueKeys_normalize h, sortedKeys_normalize j⟩

theorem Normal.normalize_eq {j : Json} (h : j.Normal = true) : j.normalize = j :=
  normalize_eq_self (normal_iff.mp h).2

theorem Normal.dedup_eq {j : Json} (h : j.Normal = true) : j.dedup = j :=
  dedup_eq_self (normal_iff.mp h).1

end Json

end Agora
