import Mathlib.Data.List.Induction

namespace Agora

/-!
# Hash chains

A list of numbered records, each of which names the hash of the one before it.  `ChainFrom` is
closed under appending one record (`chainFrom_concat`), and where the hash of a record determines
the record, the hash of one record determines the whole list up to it
(`take_eq_of_hash_eq`): its own number says how many there are.
-/

section HashChain

variable {ε η : Type} (number : ε → ℕ) (previous hash : ε → η)

/-- Records numbered from `n`, the first of which names `g` and every other the one before it. -/
def ChainFrom (g : η) (n : ℕ) : List ε → Prop
  | [] => True
  | e :: es => number e = n ∧ previous e = g ∧ ChainFrom (hash e) (n + 1) es

/-- The hash of the last record, or `g`. -/
def headHash (g : η) : List ε → η
  | [] => g
  | e :: es => headHash (hash e) es

@[simp] theorem headHash_nil (g : η) : headHash hash g [] = g := rfl

@[simp] theorem headHash_concat (g : η) (es : List ε) (e : ε) :
    headHash hash g (es ++ [e]) = hash e := by
  induction es generalizing g with
  | nil => rfl
  | cons d es ih => exact ih (hash d)

variable {hash} in
theorem headHash_eq_getElem {g : η} {es : List ε} (h : es.length - 1 < es.length) :
    headHash hash g es = hash es[es.length - 1] := by
  cases es using List.reverseRecOn with
  | nil => simp at h
  | append_singleton es e => simp

variable {number previous hash}

/-- **Append.**  A record that has the next number and names the head goes on with the chain. -/
theorem chainFrom_concat {g : η} {n : ℕ} {es : List ε} {e : ε} :
    ChainFrom number previous hash g n (es ++ [e]) ↔ ChainFrom number previous hash g n es
      ∧ number e = n + es.length ∧ previous e = headHash hash g es := by
  induction es generalizing g n with
  | nil => simp [ChainFrom]
  | cons d es ih =>
    have hlength : n + (es.length + 1) = n + 1 + es.length := by omega
    simp only [List.cons_append, ChainFrom, headHash, List.length_cons, ih, hlength, and_assoc]

/-- The numbers of a chain have no gap. -/
theorem ChainFrom.map_number {g : η} {n : ℕ} {es : List ε}
    (h : ChainFrom number previous hash g n es) : es.map number = List.range' n es.length := by
  induction es generalizing g n with
  | nil => rfl
  | cons e es ih =>
    obtain ⟨hnumber, -, hrest⟩ := h
    rw [List.map_cons, hnumber, ih hrest, List.length_cons, List.range'_succ]

theorem ChainFrom.number_getElem {g : η} {n : ℕ} {es : List ε}
    (h : ChainFrom number previous hash g n es) {k : ℕ} (hk : k < es.length) :
    number es[k] = n + k := by
  induction es generalizing g n k with
  | nil => simp at hk
  | cons e es ih =>
    cases k with
    | zero => exact h.1
    | succ k =>
      have hrest := ih h.2.2 (Nat.lt_of_succ_lt_succ hk)
      rw [List.getElem_cons_succ, hrest]
      omega

/-- A chain up to some record is a chain. -/
theorem ChainFrom.take {g : η} {n : ℕ} {es : List ε} (h : ChainFrom number previous hash g n es)
    (k : ℕ) : ChainFrom number previous hash g n (es.take k) := by
  induction es generalizing g n k with
  | nil => simp [ChainFrom]
  | cons e es ih =>
    cases k with
    | zero => trivial
    | succ k => exact ⟨h.1, h.2.1, ih h.2.2 k⟩

/-- Chains that end in the same hash are the same. -/
theorem eq_of_headHash_eq {g : η} {n : ℕ} {es fs : List ε}
    (hes : ChainFrom number previous hash g n es) (hfs : ChainFrom number previous hash g n fs)
    (hlength : es.length = fs.length)
    (hinj : ∀ e ∈ es, ∀ f ∈ fs, hash e = hash f → e = f)
    (hhead : headHash hash g es = headHash hash g fs) : es = fs := by
  -- Backwards from the end: the last records are equal, so they name the same hash before them.
  induction es using List.reverseRecOn generalizing fs with
  | nil => exact (List.eq_nil_of_length_eq_zero hlength.symm).symm
  | append_singleton es e ih =>
    cases fs using List.reverseRecOn with
    | nil => simp at hlength
    | append_singleton fs f =>
      rw [headHash_concat, headHash_concat] at hhead
      have hlast : e = f := hinj e (by simp) f (by simp) hhead
      subst hlast
      obtain ⟨hes, -, hprevious⟩ := chainFrom_concat.mp hes
      obtain ⟨hfs, -, hprevious'⟩ := chainFrom_concat.mp hfs
      have hbefore : es = fs := by
        refine ih hes hfs (by simpa using hlength) (fun a ha b hb => ?_)
          (hprevious.symm.trans hprevious')
        exact hinj a (List.mem_append_left _ ha) b (List.mem_append_left _ hb)
      rw [hbefore]

/-- **Tamper evidence.**  Where the hash of a record determines the record, the hash of one record
    determines all the records up to it. -/
theorem take_eq_of_hash_eq {g : η} {n : ℕ} {es fs : List ε}
    (hes : ChainFrom number previous hash g n es) (hfs : ChainFrom number previous hash g n fs)
    {i j : ℕ} (hi : i < es.length) (hj : j < fs.length)
    (hinj : ∀ e ∈ es.take (i + 1), ∀ f ∈ fs.take (j + 1), hash e = hash f → e = f)
    (hhash : hash es[i] = hash fs[j]) : i = j ∧ es.take (i + 1) = fs.take (j + 1) := by
  have htake : es.take (i + 1) = es.take i ++ [es[i]] := by simp
  have htake' : fs.take (j + 1) = fs.take j ++ [fs[j]] := by simp
  have hmem : es[i] ∈ es.take (i + 1) := by
    rw [htake]
    exact List.mem_append_right _ (List.mem_singleton_self _)
  have hmem' : fs[j] ∈ fs.take (j + 1) := by
    rw [htake']
    exact List.mem_append_right _ (List.mem_singleton_self _)
  have hrecord : es[i] = fs[j] := hinj _ hmem _ hmem' hhash
  have hposition : i = j := by
    have hnumber := hes.number_getElem hi
    have hnumber' := hfs.number_getElem hj
    rw [hrecord] at hnumber
    omega
  subst hposition
  refine ⟨rfl, eq_of_headHash_eq (hes.take _) (hfs.take _) ?_ hinj ?_⟩
  · rw [List.length_take, List.length_take]
    omega
  · rw [htake, htake', headHash_concat, headHash_concat, hhash]

end HashChain

end Agora
