import Mathlib.Data.List.Chain
import Mathlib.Data.List.Range

namespace Agora

/-!
# Chains of versions

Versions of one thing in the order they were made: the first has number 1 and no predecessor, each
further one names the one before it, which is then superseded, and the last one is not.  A chain grows
by superseding its last version (`IsVersionChain.concat`), and the last version may change otherwise
(`IsVersionChain.change_last`).
-/

/-- What a chain knows of a version.  The key is what all versions share. -/
structure Versioned (α ι κ : Type) where
  version : α → ℕ
  id : α → ι
  previous : α → Option ι
  key : α → κ
  superseded : α → Prop

variable {α ι κ : Type} {V : Versioned α ι κ}

/-- `b` is the version after `a`. -/
structure Versioned.Follows (V : Versioned α ι κ) (a b : α) : Prop where
  version : V.version b = V.version a + 1
  previous : V.previous b = some (V.id a)
  superseded : V.superseded a
  key : V.key a = V.key b

/-- `b` is the same version as `a`, superseded or not. -/
structure Versioned.Same (V : Versioned α ι κ) (a b : α) : Prop where
  version : V.version b = V.version a
  id : V.id b = V.id a
  previous : V.previous b = V.previous a
  key : V.key b = V.key a

structure IsVersionChain (V : Versioned α ι κ) (l : List α) : Prop where
  first : ∀ a ∈ l.head?, V.version a = 1 ∧ V.previous a = none
  next : l.IsChain V.Follows
  last : ∀ a ∈ l.getLast?, ¬ V.superseded a

namespace IsVersionChain

theorem nil : IsVersionChain V [] := ⟨by simp, List.IsChain.nil, by simp⟩

theorem singleton {a : α} (hversion : V.version a = 1) (hprevious : V.previous a = none)
    (ha : ¬ V.superseded a) : IsVersionChain V [a] where
  first := by simp [hversion, hprevious]
  next := List.IsChain.singleton a
  last := by simpa using ha

/-- What comes after the first versions follows the last of them. -/
theorem follows_of_concat {l : List α} {a : α} (h : (l ++ [a]).IsChain V.Follows) :
    l.IsChain V.Follows ∧ ∀ p ∈ l.getLast?, V.Follows p a := by
  obtain ⟨hl, -, hlast⟩ := List.isChain_append.mp h
  exact ⟨hl, fun p hp => hlast p hp a (by simp)⟩

/-- **Changes.**  The last version may change in anything but what the chain knows of it. -/
theorem change_last {l : List α} {a b : α} (h : IsVersionChain V (l ++ [a])) (hsame : V.Same a b)
    (hb : ¬ V.superseded b) : IsVersionChain V (l ++ [b]) where
  first := by
    intro c hc
    cases l with
    | nil =>
      have hfirst := h.first a (by simp)
      obtain rfl : b = c := by simpa using hc
      rwa [← hsame.version, ← hsame.previous] at hfirst
    | cons d l => exact h.first c (by simpa using hc)
  next := by
    obtain ⟨hl, hlast⟩ := follows_of_concat h.next
    refine List.isChain_append.mpr ⟨hl, List.IsChain.singleton b, fun p hp c hc => ?_⟩
    obtain rfl : b = c := by simpa using hc
    have hp := hlast p hp
    exact ⟨hsame.version.trans hp.version, hsame.previous.trans hp.previous, hp.superseded,
      hp.key.trans hsame.key.symm⟩
  last := by simpa using hb

/-- **Revisions.**  The last version is superseded and a new one follows it. -/
theorem concat {l : List α} {a b c : α} (h : IsVersionChain V (l ++ [a])) (hsame : V.Same a b)
    (hfollows : V.Follows b c) (hc : ¬ V.superseded c) : IsVersionChain V (l ++ [b] ++ [c]) where
  first := by
    intro d hd
    cases l with
    | nil =>
      have hfirst := h.first a (by simp)
      obtain rfl : b = d := by simpa using hd
      rwa [← hsame.version, ← hsame.previous] at hfirst
    | cons e l => exact h.first d (by simpa using hd)
  next := by
    obtain ⟨hl, hlast⟩ := follows_of_concat h.next
    refine List.isChain_append.mpr ⟨List.isChain_append.mpr ⟨hl, List.IsChain.singleton b, ?_⟩,
      List.IsChain.singleton c, ?_⟩
    · intro p hp d hd
      obtain rfl : b = d := by simpa using hd
      have hp := hlast p hp
      exact ⟨hsame.version.trans hp.version, hsame.previous.trans hp.previous, hp.superseded,
        hp.key.trans hsame.key.symm⟩
    · intro p hp d hd
      obtain rfl : b = p := by simpa using hp
      obtain rfl : c = d := by simpa using hd
      exact hfollows
  last := by simpa using hc

end IsVersionChain

namespace IsVersionChain

variable {l : List α} (h : IsVersionChain V l)

include h

theorem follows {i : ℕ} (hi : i + 1 < l.length) : V.Follows l[i] l[i + 1] :=
  List.isChain_iff_getElem.mp h.next i hi

/-- The versions are numbered from 1. -/
theorem version_getElem {i : ℕ} (hi : i < l.length) : V.version l[i] = i + 1 := by
  induction i with
  | zero => exact (h.first l[0] (by simp [List.head?_eq_getElem?])).1
  | succ i ih => rw [(h.follows hi).version, ih (by omega)]

theorem map_version : l.map V.version = List.range' 1 l.length := by
  apply List.ext_getElem
  · simp
  · intro i hi _
    rw [List.length_map] at hi
    rw [List.getElem_map, h.version_getElem hi, List.getElem_range']
    omega

theorem version_inj {a b : α} (ha : a ∈ l) (hb : b ∈ l) (hversion : V.version a = V.version b) :
    a = b := by
  obtain ⟨i, hi, rfl⟩ := List.getElem_of_mem ha
  obtain ⟨j, hj, rfl⟩ := List.getElem_of_mem hb
  rw [h.version_getElem hi, h.version_getElem hj] at hversion
  obtain rfl : i = j := by omega
  rfl

/-- Exactly the last version is not superseded. -/
theorem superseded_getElem_iff {i : ℕ} (hi : i < l.length) : V.superseded l[i] ↔ i + 1 < l.length := by
  constructor
  · intro hsuperseded
    by_contra hlast
    have hi' : l.length - 1 = i := by omega
    refine h.last l[i] ?_ hsuperseded
    rw [List.getLast?_eq_getElem?, hi', List.getElem?_eq_getElem hi]
    exact Option.mem_some_self _
  · intro hnext
    exact (h.follows hnext).superseded

/-- What is not superseded is the last version. -/
theorem eq_concat {a : α} (ha : a ∈ l) (hcurrent : ¬ V.superseded a) : ∃ earlier, l = earlier ++ [a] := by
  obtain ⟨i, hi, rfl⟩ := List.getElem_of_mem ha
  have hlast : i + 1 = l.length := by
    have := mt (h.superseded_getElem_iff hi).mpr hcurrent
    omega
  have hne : l ≠ [] := List.ne_nil_of_length_pos (by omega)
  have hi' : l.length - 1 = i := by omega
  refine ⟨l.dropLast, ?_⟩
  conv_lhs => rw [← List.dropLast_append_getLast hne, List.getLast_eq_getElem]
  simp only [hi']

/-- A superseded version has a next one, which names it. -/
theorem exists_next {a : α} (ha : a ∈ l) (hsuperseded : V.superseded a) :
    ∃ b ∈ l, V.previous b = some (V.id a) := by
  obtain ⟨i, hi, rfl⟩ := List.getElem_of_mem ha
  have hnext := (h.superseded_getElem_iff hi).mp hsuperseded
  exact ⟨l[i + 1], List.getElem_mem hnext, (h.follows hnext).previous⟩

/-- A version that names a previous one comes after it. -/
theorem exists_previous {b : α} (hb : b ∈ l) {p : ι} (hprevious : V.previous b = some p) :
    ∃ a ∈ l, V.Follows a b ∧ V.id a = p := by
  obtain ⟨i, hi, rfl⟩ := List.getElem_of_mem hb
  cases i with
  | zero =>
    have hfirst := (h.first l[0] (by simp [List.head?_eq_getElem?])).2
    rw [hprevious] at hfirst
    cases hfirst
  | succ i =>
    have hfollows := h.follows hi
    refine ⟨l[i], List.getElem_mem (by omega), hfollows, ?_⟩
    rw [hfollows.previous] at hprevious
    exact Option.some.inj hprevious

end IsVersionChain

/-- **Histories.**  Where everything but a first version has a previous one, everything is the last of a
    list of versions that are numbered from 1. -/
theorem exists_history {S : α → Prop} {R : α → α → Prop} {version : α → ℕ}
    (hprevious : ∀ b, S b → version b = 1 ∨ ∃ a, S a ∧ R a b ∧ version b = version a + 1) {b : α}
    (hb : S b) : ∃ l : List α, (∀ a ∈ l, S a) ∧ (l ++ [b]).IsChain R
      ∧ (l ++ [b]).map version = List.range' 1 (l.length + 1) := by
  induction hn : version b generalizing b with
  | zero =>
    rcases hprevious b hb with hone | ⟨a, -, -, hnext⟩
    · omega
    · omega
  | succ n ih =>
    rcases hprevious b hb with hone | ⟨a, ha, hab, hnext⟩
    · exact ⟨[], List.forall_mem_nil _, List.IsChain.singleton b, by simp [hone]⟩
    · obtain ⟨l, hl, hchain, hversions⟩ := ih ha (by omega)
      have hlast : version a = l.length + 1 := by
        have hget := congrArg List.getLast? hversions
        simp [List.range'_concat] at hget
        omega
      refine ⟨l ++ [a], ?_, ?_, ?_⟩
      · intro c hc
        rcases List.mem_append.mp hc with hearlier | hlast
        · exact hl c hearlier
        · rwa [List.mem_singleton.mp hlast]
      · refine List.isChain_append.mpr ⟨hchain, List.IsChain.singleton b, fun p hp c hc => ?_⟩
        obtain rfl : a = p := by simpa using hp
        obtain rfl : b = c := by simpa using hc
        exact hab
      · have hnumber : version b = 1 + 1 * (l.length + 1) := by omega
        rw [List.map_append, hversions, List.length_append, List.length_singleton, List.map_singleton,
          hnumber]
        exact List.range'_concat.symm

end Agora
