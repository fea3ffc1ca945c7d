import Agora.Lib.Json

namespace Agora

/-!
# Python's equality of JSON values

`Json.pyEq` is `==` on what `json.loads` returns.  It is coarser than equality: numbers are compared
by value, and booleans are numbers.
-/

namespace Json

/-- The number a value is, `True` and `False` included, before rounding. -/
def number? : Json → Option Rat
  | .bool b => some (if b then 1 else 0)
  | .int n => some n
  | .float mantissa (.ofNat e) => some ((mantissa : Rat) * 10 ^ e)
  | .float mantissa (.negSucc e) => some (mkRat mantissa (10 ^ (e + 1)))
  | _ => none

mutual
/-- `==` on what `json.loads` returns, for objects with sorted keys: `1`, `1.0` and `True` are
    equal. -/
def pyEq : Json → Json → Bool
  | .null, .null => true
  | .str a, .str b => a = b
  | .arr a, .arr b => pyEqItems a b
  | .obj a, .obj b => pyEqEntries a b
  | a, b => (number? a).isSome && decide (number? a = number? b)
def pyEqItems : List Json → List Json → Bool
  | [], [] => true
  | a :: as, b :: bs => pyEq a b && pyEqItems as bs
  | _, _ => false
def pyEqEntries : List (PyStr × Json) → List (PyStr × Json) → Bool
  | [], [] => true
  | (j, a) :: as, (k, b) :: bs => j = k && pyEq a b && pyEqEntries as bs
  | _, _ => false
end

mutual
theorem pyEq_self : ∀ j : Json, pyEq j j = true
  | .null => rfl
  | .bool b => by rw [pyEq] <;> simp [number?]
  | .int n => by rw [pyEq] <;> simp [number?]
  | .float m e => by cases e <;> rw [pyEq] <;> simp [number?]
  | .str s => by rw [pyEq, decide_eq_true_eq]
  | .arr items => by rw [pyEq, pyEqItems_self items]
  | .obj entries => by rw [pyEq, pyEqEntries_self entries]
theorem pyEqItems_self : ∀ items : List Json, pyEqItems items items = true
  | [] => rfl
  | j :: items => by rw [pyEqItems, pyEq_self j, pyEqItems_self items]; rfl
theorem pyEqEntries_self : ∀ entries : List (PyStr × Json), pyEqEntries entries entries = true
  | [] => rfl
  | (k, v) :: entries => by
    rw [pyEqEntries, pyEq_self v, pyEqEntries_self entries, decide_eq_true rfl]
    rfl
end

/-- Equal dictionaries have the same entries that are strings. -/
theorem mem_str_of_pyEqEntries {as bs : List (PyStr × Json)} (h : pyEqEntries as bs = true)
    {k t : PyStr} (hmem : (k, .str t) ∈ as) : (k, .str t) ∈ bs := by
  induction as generalizing bs with
  | nil => cases hmem
  | cons a as ih =>
    obtain ⟨j, v⟩ := a
    cases bs with
    | nil => cases h
    | cons b bs =>
      obtain ⟨k', w⟩ := b
      simp only [pyEqEntries, Bool.and_eq_true, decide_eq_true_eq] at h
      obtain ⟨⟨rfl, hvalue⟩, hrest⟩ := h
      rcases List.mem_cons.mp hmem with heq | hmem
      · obtain ⟨rfl, rfl⟩ := Prod.mk.inj heq
        have hw : w = .str t := by
          cases w <;> simp_all [pyEq, number?]
        rw [hw]
        exact List.mem_cons_self
      · exact List.mem_cons_of_mem _ (ih hrest hmem)

end Json

end Agora
