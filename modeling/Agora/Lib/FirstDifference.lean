import Mathlib.Data.List.Basic

namespace Agora

/-!
# The first difference of two lists

Two lists are equal, or there is one first position at which they differ or at which the shorter
one ends.  Searching the zipped lists for it finds the first kind of difference, and comparing the
lengths the second.
-/

variable {α β : Type} {l l' : List α} {i j : ℕ}

/-- The first position at which the lists differ, or at which the shorter one ends. -/
structure FirstDifference (l l' : List α) (i : ℕ) : Prop where
  before : ∀ j < i, l[j]? = l'[j]?
  here : l[i]? ≠ l'[i]?

theorem FirstDifference.unique (h : FirstDifference l l' i) (h' : FirstDifference l l' j) :
    i = j := by
  rcases Nat.lt_trichotomy i j with hlt | heq | hgt
  · exact absurd (h'.before i hlt) h.here
  · exact heq
  · exact absurd (h.before j hgt) h'.here

theorem FirstDifference.ne (h : FirstDifference l l' i) : l ≠ l' := by
  rintro rfl
  exact h.here rfl

end Agora
