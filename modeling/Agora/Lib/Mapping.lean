import Agora.Lib.Codec

namespace Agora

/-!
# More codecs

Mappings from strings (`Codec.mapping`), values that may be spelled in several ways
(`Codec.spelled`), and fields that are read under two names (`Fields.aliased`).
-/

/-! ### Mappings -/

/-- `dict[str, α]`.  The order of the keys means nothing, so they are kept sorted. -/
structure Mapping (α : Type) where
  entries : List (PyStr × α)
  ordered : Codec.Ordered (entries.map Prod.fst)
deriving DecidableEq

namespace Mapping

variable {α : Type}

/-- `dict(pairs)`: a later pair replaces an earlier one with its key. -/
def ofPairs (pairs : List (PyStr × α)) : Mapping α where
  entries := sortByKey (dictOfPairs pairs)
  ordered := by
    have hperm := (sortByKey_perm (dictOfPairs pairs)).map Prod.fst
    refine ⟨hperm.nodup_iff.mpr (nodup_keys_dictOfPairs pairs), ?_⟩
    exact List.pairwise_map.mpr (pairwise_sortByKey (dictOfPairs pairs))

/-- The entries of an object, when its keys are sorted. -/
def check (entries : List (PyStr × α)) : Option (Mapping α) :=
  if h : Codec.Ordered (entries.map Prod.fst) then some ⟨entries, h⟩ else none

theorem check_entries (m : Mapping α) : check m.entries = some m := dif_pos m.ordered

theorem entries_of_check {entries : List (PyStr × α)} {m : Mapping α} (h : check entries = some m) :
    m.entries = entries := by
  unfold check at h
  split at h
  · rw [← Option.some.inj h]
  · cases h

end Mapping

namespace Codec

variable {α : Type}

def dumpEntries (c : Codec α) (entries : List (PyStr × α)) : Entries := entries.map fun e => (e.1, c.dump e.2)

def loadEntries (c : Codec α) : Entries → Option (List (PyStr × α))
  | [] => some []
  | (k, j) :: es => do
    let a ← c.load j
    let rest ← c.loadEntries es
    some ((k, a) :: rest)

theorem loadEntries_dumpEntries (c : Codec α) (l : List (PyStr × α)) :
    c.loadEntries (c.dumpEntries l) = some l := by
  induction l with
  | nil => rfl
  | cons e l ih =>
    show c.loadEntries ((e.1, c.dump e.2) :: c.dumpEntries l) = _
    simp [loadEntries, c.load_dump, ih]

@[simp] theorem keys_dumpEntries (c : Codec α) (l : List (PyStr × α)) :
    (c.dumpEntries l).map Prod.fst = l.map Prod.fst := by
  simp [dumpEntries]

theorem explicit_entries_iff (c : Codec α) {es : Entries} {l : List (PyStr × α)}
    (h : c.loadEntries es = some l) :
    es.all (fun e => c.explicit e.2) = true ↔ es = c.dumpEntries l := by
  induction es generalizing l with
  | nil =>
    cases h
    simp [dumpEntries]
  | cons e es ih =>
    obtain ⟨a, ha, h⟩ := Option.bind_eq_some_iff.mp h
    obtain ⟨rest, hrest, h⟩ := Option.bind_eq_some_iff.mp h
    cases h
    rw [List.all_cons, Bool.and_eq_true, c.explicit_iff ha, ih hrest]
    show _ ↔ e :: es = (e.1, c.dump a) :: c.dumpEntries rest
    rw [List.cons.injEq, Prod.ext_iff]
    simp

/-- `dict[str, α]`. -/
def mapping (c : Codec α) : Codec (Mapping α) where
  dump m := .obj (c.dumpEntries m.entries)
  load
    | .obj es => (c.loadEntries es).bind Mapping.check
    | _ => none
  explicit
    | .obj es => es.all fun e => c.explicit e.2
    | _ => false
  normal_dump m := by
    rw [Json.Normal, Json.allObjects, keys_dumpEntries, Bool.and_eq_true, Bool.and_eq_true]
    refine ⟨⟨decide_eq_true m.ordered.1, decide_eq_true m.ordered.2⟩, Json.allEntries_iff.mpr ?_⟩
    intro e he
    obtain ⟨x, -, rfl⟩ := List.mem_map.mp he
    exact c.normal_dump x.2
  load_dump m := by
    simp only
    rw [c.loadEntries_dumpEntries, Option.bind_some, Mapping.check_entries]
  explicit_iff {j m} h := by
    cases j with
    | obj es =>
      obtain ⟨l, hl, hm⟩ := Option.bind_eq_some_iff.mp h
      rw [Json.obj.injEq, Mapping.entries_of_check hm]
      exact c.explicit_entries_iff hl
    | _ => cases h

/-! ### Spellings -/

/-- A value that is written as one text and read from several. -/
def spelled (parse : Json → Option α) (print : α → String)
    (parse_print : ∀ a, parse (.text (print a)) = some a) : Codec α where
  dump a := .text (print a)
  load := parse
  explicit j :=
    match j with
    | .str s => (parse (.str s)).any fun a => s = PyStr.ofString (print a)
    | _ => false
  normal_dump _ := rfl
  load_dump := parse_print
  explicit_iff {j a} h := by
    cases j with
    | str s =>
      simp only [h, Option.any_some, decide_eq_true_eq]
      exact Iff.symm (Json.str.injEq s (PyStr.ofString (print a)) ▸ Iff.rfl)
    | _ =>
      simp only [Bool.false_eq_true, false_iff]
      exact nofun

end Codec

namespace Fields

/-- A required field that is also read under another name. -/
def aliased {α : Type} (key other : String) (c : Codec α) : Fields [PyStr.ofString key] α where
  dump a := [(PyStr.ofString key, c.dump a)]
  load
    | [] => none
    | (k, j) :: rest =>
      if k = PyStr.ofString key ∨ k = PyStr.ofString other then (c.load j).map (·, rest) else none
  explicit
    | [] => false
    | (k, j) :: _ => k = PyStr.ofString key && c.explicit j
  keys_dump a := (one key c).keys_dump a
  normal_dump a := (one key c).normal_dump a
  load_dump a rest := by simp [c.load_dump]
  explicit_iff {es a rest} h := by
    cases es with
    | nil => cases h
    | cons e es =>
      obtain ⟨k, j⟩ := e
      simp only at h ⊢
      split at h
      · obtain ⟨b, hb, heq⟩ := Option.map_eq_some_iff.mp h
        obtain ⟨rfl, rfl⟩ := Prod.mk.inj heq
        rw [Bool.and_eq_true, c.explicit_iff hb, decide_eq_true_eq]
        simp
      · cases h

end Fields

end Agora
