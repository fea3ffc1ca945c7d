import Agora.Ingestion.Documents
import Mathlib.Data.List.Nodup
import Mathlib.Data.List.Pairwise

namespace Agora.Ingestion.Chunking

/-!
# Paths of a JSON document

The path of a scalar is the keys and the numbers that lead to it, one behind the other, and a key is
written as it is.  So a path may be read in two ways: `a.b` is one key, and two.  Two scalars have
one path exactly if some dict has two keys of which the longer one is the shorter one and a part of
what leads on from there (`nodup_leafPaths_iff`).
-/

/-! ### Ways down -/

/-- The text leads from the value to a scalar. -/
inductive Value.Leads : Value → PyStr → Prop
  | scalar (s : Scalar) : Leads (.scalar s) []
  | item {items : List Value} {index : ℕ} {v : Value} {q : PyStr} (hv : items[index]? = some v)
      (hq : Leads v q) : Leads (.list items) (itemPath [] index ++ q)
  | entry {entries : List (PyStr × Value)} {key : PyStr} {v : Value} {q : PyStr}
      (hv : (key, v) ∈ entries) (hq : Leads v q) : Leads (.dict entries) (keyPath [] key ++ q)

/-- What is in a value, itself included. -/
inductive Value.Holds : Value → Value → Prop
  | self (v : Value) : Holds v v
  | item {items : List Value} {v w : Value} (hv : v ∈ items) (hw : Holds v w) :
      Holds (.list items) w
  | entry {entries : List (PyStr × Value)} {e : PyStr × Value} {w : Value} (he : e ∈ entries)
      (hw : Holds e.2 w) : Holds (.dict entries) w

/-- No dict has a key twice. -/
def Value.UniqueKeys (v : Value) : Prop :=
  ∀ entries, v.Holds (.dict entries) → (entries.map Prod.fst).Nodup

/-- One key goes on behind the other one as the way does that leads down from there. -/
def Clash (entries : List (PyStr × Value)) : Prop :=
  ∃ key v more w q, (key, v) ∈ entries ∧ (key ++ more, w) ∈ entries ∧ more ≠ [] ∧ w.Leads q
    ∧ v.Leads (more ++ q)

/-- Every path can be read in one way only. -/
def Value.Unambiguous (v : Value) : Prop := ∀ entries, v.Holds (.dict entries) → ¬ Clash entries

/-- The paths of the scalars, in the order of the walk. -/
def Value.leafPaths (v : Value) : List PyStr :=
  ((nodes v 0 DocumentReaders.rootPath).filter (·.scalar?.isSome)).map (·.path)

mutual
/-- What leads to the scalars, in the order of the walk. -/
def tails : Value → List PyStr
  | .scalar _ => [[]]
  | .list items => itemTails items 0
  | .dict entries => (sortKeys (entryTails entries)).flatMap Prod.snd
def itemTails : List Value → ℕ → List PyStr
  | [], _ => []
  | v :: items, index => (tails v).map (itemPath [] index ++ ·) ++ itemTails items (index + 1)
def entryTails : List (PyStr × Value) → List (PyStr × List PyStr)
  | [] => []
  | (key, v) :: entries => (key, (tails v).map (keyPath [] key ++ ·)) :: entryTails entries
end

theorem itemPath_eq (path : PyStr) (index : ℕ) : itemPath path index = path ++ itemPath [] index :=
  rfl

theorem keyPath_eq (path key : PyStr) : keyPath path key = path ++ keyPath [] key := rfl

theorem map_append_append (path path' : PyStr) (l : List PyStr) :
    l.map ((path ++ path') ++ ·) = (l.map (path' ++ ·)).map (path ++ ·) := by
  rw [List.map_map]
  exact List.map_congr_left fun q _ => List.append_assoc path path' q

/-- The paths of the scalars among the nodes. -/
def pathsIn (l : List Node) : List PyStr := (l.filter (·.scalar?.isSome)).map (·.path)

theorem pathsIn_append (l l' : List Node) : pathsIn (l ++ l') = pathsIn l ++ pathsIn l' := by
  rw [pathsIn, List.filter_append, List.map_append]
  rfl

theorem pathsIn_flatMap {α : Type} (g : α → List Node) (l : List α) :
    pathsIn (l.flatMap g) = l.flatMap fun a => pathsIn (g a) := by
  induction l with
  | nil => rfl
  | cons a l ih => rw [List.flatMap_cons, pathsIn_append, ih, List.flatMap_cons]

mutual
/-- The walk takes every way down, from the path of the value on. -/
theorem pathsIn_nodes : ∀ (v : Value) (depth : ℕ) (path : PyStr),
    pathsIn (nodes v depth path) = (tails v).map (path ++ ·)
  | .scalar s, depth, path => by
    rw [nodes, tails, List.map_singleton, List.append_nil]
    rfl
  | .list items, depth, path => by
    rw [nodes, tails]
    exact pathsIn_itemNodes items (depth + 1) path 0
  | .dict entries, depth, path => by
    have hentries := congrArg sortKeys (pathsIn_entryNodes entries (depth + 1) path)
    rw [sortKeys_map, sortKeys_map] at hentries
    have hflat := congrArg (List.flatMap Prod.snd) hentries
    rw [List.flatMap_map, List.flatMap_map] at hflat
    rw [nodes, tails, List.map_flatMap]
    exact (pathsIn_flatMap Prod.snd _).trans hflat
theorem pathsIn_itemNodes : ∀ (items : List Value) (depth : ℕ) (path : PyStr) (index : ℕ),
    pathsIn (itemNodes items depth path index) = (itemTails items index).map (path ++ ·)
  | [], _, _, _ => by
    rw [itemNodes, itemTails]
    rfl
  | v :: items, depth, path, index => by
    rw [itemNodes, itemTails, pathsIn_append, List.map_append, pathsIn_nodes v depth _,
      pathsIn_itemNodes items depth path (index + 1), itemPath_eq, map_append_append]
theorem pathsIn_entryNodes : ∀ (entries : List (PyStr × Value)) (depth : ℕ) (path : PyStr),
    (entryNodes entries depth path).map (fun e => (e.1, pathsIn e.2))
      = (entryTails entries).map fun e => (e.1, e.2.map (path ++ ·))
  | [], _, _ => by
    rw [entryNodes, entryTails]
    rfl
  | (key, v) :: entries, depth, path => by
    rw [entryNodes, entryTails, List.map_cons, List.map_cons, pathsIn_nodes v depth _,
      pathsIn_entryNodes entries depth path, keyPath_eq, map_append_append]
end

/-! ### Which ways there are -/

theorem entryTails_eq (entries : List (PyStr × Value)) :
    entryTails entries = entries.map fun e => (e.1, (tails e.2).map (keyPath [] e.1 ++ ·)) := by
  induction entries with
  | nil => rw [entryTails, List.map_nil]
  | cons e entries ih => rw [entryTails, ih, List.map_cons]

/-- The entries need not be sorted. -/
theorem tails_dict_perm (entries : List (PyStr × Value)) :
    (tails (.dict entries)).Perm
      (entries.flatMap fun e => (tails e.2).map (keyPath [] e.1 ++ ·)) := by
  have hperm := (sortKeys_perm (entryTails entries)).flatMap_right Prod.snd
  rw [tails]
  apply hperm.trans
  rw [entryTails_eq, List.flatMap_map]

theorem mem_itemTails_iff {items : List Value} {index : ℕ} {q : PyStr} :
    q ∈ itemTails items index
      ↔ ∃ k v q', items[k]? = some v ∧ q' ∈ tails v ∧ q = itemPath [] (index + k) ++ q' := by
  induction items generalizing index with
  | nil => simp [itemTails]
  | cons v items ih =>
    rw [itemTails, List.mem_append, ih, List.mem_map]
    constructor
    · rintro (⟨q', hq', rfl⟩ | ⟨k, w, q', hw, hq', rfl⟩)
      · exact ⟨0, v, q', rfl, hq', rfl⟩
      · exact ⟨k + 1, w, q', hw, hq', by rw [Nat.add_right_comm, Nat.add_assoc]⟩
    · rintro ⟨k, w, q', hw, hq', rfl⟩
      cases k with
      | zero =>
        obtain rfl := Option.some.inj hw
        exact .inl ⟨q', hq', rfl⟩
      | succ k => exact .inr ⟨k, w, q', hw, hq', by rw [Nat.add_right_comm, Nat.add_assoc]⟩

mutual
theorem mem_tails_iff : ∀ (v : Value) {q : PyStr}, q ∈ tails v ↔ v.Leads q
  | .scalar s, q => by
    rw [tails, List.mem_singleton]
    constructor
    · rintro rfl
      exact .scalar s
    · intro h
      cases h
      rfl
  | .list items, q => by
    have hitems := mem_items_iff items
    rw [tails, mem_itemTails_iff]
    constructor
    · rintro ⟨k, v, q', hv, hq', rfl⟩
      rw [Nat.zero_add]
      exact .item hv ((hitems v (List.mem_of_getElem? hv)).mp hq')
    · intro h
      cases h with
      | @item _ index v q' hv hq' =>
        exact ⟨index, v, q', hv, (hitems v (List.mem_of_getElem? hv)).mpr hq', by rw [Nat.zero_add]⟩
  | .dict entries, q => by
    have hentries := mem_entries_iff entries
    rw [(tails_dict_perm entries).mem_iff, List.mem_flatMap]
    constructor
    · rintro ⟨e, he, hq⟩
      obtain ⟨q', hq', rfl⟩ := List.mem_map.mp hq
      exact .entry he ((hentries e he).mp hq')
    · intro h
      cases h with
      | @entry _ key v q' hv hq' =>
        exact ⟨(key, v), hv, List.mem_map.mpr ⟨q', (hentries _ hv).mpr hq', rfl⟩⟩
theorem mem_items_iff : ∀ (items : List Value), ∀ v ∈ items, ∀ {q : PyStr},
    q ∈ tails v ↔ v.Leads q
  | [] => List.forall_mem_nil _
  | v :: items => List.forall_mem_cons.mpr ⟨mem_tails_iff v, mem_items_iff items⟩
theorem mem_entries_iff : ∀ (entries : List (PyStr × Value)), ∀ e ∈ entries, ∀ {q : PyStr},
    q ∈ tails e.2 ↔ e.2.Leads q
  | [] => List.forall_mem_nil _
  | (_, v) :: entries => List.forall_mem_cons.mpr ⟨mem_tails_iff v, mem_entries_iff entries⟩
end

/-! ### When no way is there twice -/

/-- A number ends at its bracket. -/
theorem itemPath_append_inj {i j : ℕ} {q q' : PyStr}
    (h : itemPath [] i ++ q = itemPath [] j ++ q') : i = j := by
  have htext (k : ℕ) (r : PyStr) : itemPath [] k ++ r
      = .scalar '[' :: (PyStr.ofChars (Nat.toDigits 10 k) ++ .scalar ']' :: r) := by
    simp [itemPath]
  rw [htext, htext] at h
  have hdigits (k : ℕ) (r : PyStr) :
      (PyStr.ofChars (Nat.toDigits 10 k) ++ .scalar ']' :: r).takeWhile (· ≠ .scalar ']')
        = PyStr.ofChars (Nat.toDigits 10 k) := by
    rw [List.takeWhile_append_of_pos]
    · simp
    · intro p hp
      obtain ⟨c, hc, rfl⟩ := List.mem_map.mp hp
      have hdigit : c.isDigit = true := Nat.isDigit_of_mem_toDigits (by decide) (by decide) hc
      have hne : c ≠ ']' := by
        rintro rfl
        exact absurd hdigit (by decide)
      simpa using hne
  have hsame := congrArg (List.takeWhile (· ≠ .scalar ']')) (List.cons.inj h).2
  rw [hdigits, hdigits] at hsame
  have hchars := congrArg PyStr.chars? hsame
  rw [PyStr.chars?_ofChars, PyStr.chars?_ofChars] at hchars
  have hvalue := congrArg (Nat.ofDigitChars 10 · 0) (Option.some.inj hchars)
  simpa using hvalue

theorem nodup_itemTails_iff {items : List Value} {index : ℕ} :
    (itemTails items index).Nodup ↔ ∀ v ∈ items, (tails v).Nodup := by
  induction items generalizing index with
  | nil => simp [itemTails]
  | cons v items ih =>
    rw [itemTails, List.nodup_append, ih, List.forall_mem_cons,
      List.nodup_map_iff (List.append_right_injective _)]
    refine and_congr_right fun _ => and_iff_left_of_imp fun _ => ?_
    intro q hq q' hq' heq
    obtain ⟨p, -, rfl⟩ := List.mem_map.mp hq
    obtain ⟨k, w, p', -, -, rfl⟩ := mem_itemTails_iff.mp hq'
    have hindex := itemPath_append_inj heq
    omega

/-- Two keys of a dict are different, so one of two ways with one text has the longer key. -/
theorem nodup_entries_iff {entries : List (PyStr × Value)} (hkeys : (entries.map Prod.fst).Nodup) :
    (entries.flatMap fun e => (tails e.2).map (keyPath [] e.1 ++ ·)).Nodup
      ↔ (∀ e ∈ entries, (tails e.2).Nodup) ∧ ¬ Clash entries := by
  rw [List.nodup_flatMap]
  apply and_congr
  · exact forall₂_congr fun e _ => List.nodup_map_iff (List.append_right_injective _)
  · have htext (key q : PyStr) : keyPath [] key ++ q = .scalar '.' :: (key ++ q) := by
      simp [keyPath]
    constructor
    · rintro hdisjoint ⟨key, v, more, w, q, hv, hw, hmore, hq, hmoreq⟩
      have hne : (key, v) ≠ (key ++ more, w) := by
        intro heq
        have hlength := congrArg (fun e : PyStr × Value => e.1.length) heq
        have hpositive := List.length_pos_of_ne_nil hmore
        simp only [List.length_append] at hlength
        omega
      have : Std.Symm (Function.onFun List.Disjoint fun e : PyStr × Value =>
        (tails e.2).map (keyPath [] e.1 ++ ·)) := ⟨fun _ _ h _ ha hb => h hb ha⟩
      apply hdisjoint.forall hv hw hne
      · exact List.mem_map.mpr ⟨more ++ q, (mem_tails_iff v).mpr hmoreq, rfl⟩
      · refine List.mem_map.mpr ⟨q, (mem_tails_iff w).mpr hq, ?_⟩
        show keyPath [] (key ++ more) ++ q = keyPath [] key ++ (more ++ q)
        rw [htext, htext, List.append_assoc]
    · intro hclash
      apply hkeys.of_map.pairwise_of_forall_ne
      intro e he e' he' hne t ht ht'
      obtain ⟨q, hq, rfl⟩ := List.mem_map.mp ht
      obtain ⟨q', hq', heq⟩ := List.mem_map.mp ht'
      have hkey : e.1 ≠ e'.1 := fun h => hne (List.inj_on_of_nodup_map hkeys he he' h)
      rw [htext, htext] at heq
      rcases List.append_eq_append_iff.mp (List.cons.inj heq).2 with
        ⟨more, hlonger, rfl⟩ | ⟨more, hlonger, rfl⟩
      · apply hclash
        refine ⟨e'.1, e'.2, more, e.2, q, he', hlonger ▸ he, ?_, (mem_tails_iff _).mp hq,
          (mem_tails_iff _).mp hq'⟩
        rintro rfl
        exact hkey (hlonger.trans (List.append_nil _))
      · apply hclash
        refine ⟨e.1, e.2, more, e'.2, q', he, hlonger ▸ he', ?_, (mem_tails_iff _).mp hq',
          (mem_tails_iff _).mp hq⟩
        rintro rfl
        exact hkey (hlonger.trans (List.append_nil _)).symm

theorem unambiguous_list_iff {items : List Value} :
    (Value.list items).Unambiguous ↔ ∀ v ∈ items, v.Unambiguous := by
  constructor
  · intro h v hv entries hentries
    exact h entries (.item hv hentries)
  · intro h entries hentries
    cases hentries with
    | item hv hw => exact h _ hv entries hw

theorem unambiguous_dict_iff {entries : List (PyStr × Value)} :
    (Value.dict entries).Unambiguous ↔ (∀ e ∈ entries, e.2.Unambiguous) ∧ ¬ Clash entries := by
  constructor
  · intro h
    exact ⟨fun e he inner hinner => h inner (.entry he hinner), h entries (.self _)⟩
  · rintro ⟨hall, hclash⟩ inner hinner
    cases hinner with
    | self => exact hclash
    | entry he hw => exact hall _ he inner hw

mutual
theorem nodup_tails_iff : ∀ (v : Value), v.UniqueKeys → ((tails v).Nodup ↔ v.Unambiguous)
  | .scalar s, _ => by
    rw [tails]
    refine iff_of_true (List.nodup_singleton _) fun entries h => ?_
    cases h
  | .list items, h => by
    rw [tails, nodup_itemTails_iff, unambiguous_list_iff]
    exact forall₂_congr (nodup_items_iff items fun v hv entries hin => h entries (.item hv hin))
  | .dict entries, h => by
    rw [(tails_dict_perm entries).nodup_iff, nodup_entries_iff (h entries (.self _)),
      unambiguous_dict_iff]
    apply and_congr_left'
    have hunique : ∀ e ∈ entries, e.2.UniqueKeys := fun e he inner hin => h inner (.entry he hin)
    exact forall₂_congr (nodup_entryValues_iff entries hunique)
theorem nodup_items_iff : ∀ (items : List Value), (∀ v ∈ items, v.UniqueKeys) →
    ∀ v ∈ items, ((tails v).Nodup ↔ v.Unambiguous)
  | [], _ => List.forall_mem_nil _
  | v :: items, h => by
    obtain ⟨hv, hitems⟩ := List.forall_mem_cons.mp h
    exact List.forall_mem_cons.mpr ⟨nodup_tails_iff v hv, nodup_items_iff items hitems⟩
theorem nodup_entryValues_iff : ∀ (entries : List (PyStr × Value)),
    (∀ e ∈ entries, e.2.UniqueKeys) → ∀ e ∈ entries, ((tails e.2).Nodup ↔ e.2.Unambiguous)
  | [], _ => List.forall_mem_nil _
  | (_, v) :: entries, h => by
    obtain ⟨hv, hentries⟩ := List.forall_mem_cons.mp h
    exact List.forall_mem_cons.mpr ⟨nodup_tails_iff v hv, nodup_entryValues_iff entries hentries⟩
end

/-- **Paths.**  No two scalars have one path if every path can be read in one way only. -/
theorem nodup_leafPaths_iff {v : Value} (h : v.UniqueKeys) :
    v.leafPaths.Nodup ↔ v.Unambiguous := by
  rw [← nodup_tails_iff v h]
  show (pathsIn (nodes v 0 DocumentReaders.rootPath)).Nodup ↔ _
  rw [pathsIn_nodes, List.nodup_map_iff (List.append_right_injective _)]

/-! ### What is read of a text -/

mutual
theorem uniqueKeys_ofJson : ∀ j : Json, j.uniqueKeys = true → (Value.ofJson j).UniqueKeys
  | .null, _ | .bool true, _ | .bool false, _ | .int _, _ | .float _ _, _ | .str _, _ => by
    intro entries h
    cases h
  | .arr items, h => by
    rw [Json.uniqueKeys, Json.allObjects] at h
    have hitems := uniqueKeys_ofJsonItems items h
    intro entries hin
    cases hin with
    | item hv hw => exact hitems _ hv entries hw
  | .obj members, h => by
    rw [Json.uniqueKeys, Json.allObjects, Bool.and_eq_true, decide_eq_true_eq] at h
    have hmembers := uniqueKeys_ofJsonEntries members h.2
    intro entries hin
    cases hin with
    | self =>
      rw [keys_ofJsonEntries]
      exact h.1
    | entry he hw => exact hmembers _ he entries hw
theorem uniqueKeys_ofJsonItems : ∀ items : List Json,
    Json.allItems (fun ks => decide ks.Nodup) items = true →
      ∀ v ∈ Value.ofJsonItems items, v.UniqueKeys
  | [], _ => List.forall_mem_nil _
  | j :: items, h => by
    rw [Json.allItems, Bool.and_eq_true] at h
    exact List.forall_mem_cons.mpr ⟨uniqueKeys_ofJson j h.1, uniqueKeys_ofJsonItems items h.2⟩
theorem uniqueKeys_ofJsonEntries : ∀ members : List (PyStr × Json),
    Json.allEntries (fun ks => decide ks.Nodup) members = true →
      ∀ e ∈ Value.ofJsonEntries members, e.2.UniqueKeys
  | [], _ => List.forall_mem_nil _
  | (_, j) :: members, h => by
    rw [Json.allEntries, Bool.and_eq_true] at h
    exact List.forall_mem_cons.mpr ⟨uniqueKeys_ofJson j h.1, uniqueKeys_ofJsonEntries members h.2⟩
theorem keys_ofJsonEntries : ∀ members : List (PyStr × Json),
    (Value.ofJsonEntries members).map Prod.fst = members.map Prod.fst
  | [] => rfl
  | (key, j) :: members => by
    rw [Value.ofJsonEntries, List.map_cons, List.map_cons, keys_ofJsonEntries members]
end

end Agora.Ingestion.Chunking
