import Agora.Lib.CanonicalJson
import Agora.Lib.Except

namespace Agora

open Agora.Except (Raises)

/-!
# Exceptions of the JSON functions

Reading a text raises a `ValueError`, or a `RecursionError` when the text is nested more deeply than
the interpreter allows (`raises_loads`); brackets alone are enough for the latter
(`loads_brackets`).  Writing canonical bytes raises nothing but `ValueError`
(`raises_canonicalJson`).
-/

/-- The exception is a `ValueError`. -/
def IsValueError (e : PyException) : Prop := e.cls = .valueError

namespace Json


/-- The exceptions of `json.loads`. -/
def IsLoadError (e : PyException) : Prop := IsValueError e ∨ e.cls = .recursionError

theorem isLoadError_decode : IsLoadError decodeError := .inl rfl

/-! ### Reading -/

theorem raises_unescape (cs : List Char) : Raises IsLoadError (unescape cs) := by
  fun_induction unescape cs with
  | case1 => exact .error isLoadError_decode
  | case2 => exact .ok _
  | case3 => exact .error isLoadError_decode
  | case4 _ _ _ _ _ _ _ ih => exact ih.bind fun _ _ => .ok _
  | case5 => exact .error isLoadError_decode
  | case6 _ _ _ _ _ ih => exact ih.bind fun _ _ => .ok _
  | case7 => exact .error isLoadError_decode
  | case8 _ _ _ _ _ _ ih => exact ih.bind fun _ _ => .ok _

theorem raises_parseString (cs : List Char) : Raises IsLoadError (parseString cs) := by
  rw [parseString]
  exact (raises_unescape cs).bind fun _ _ => .ok _

theorem raises_numberTail (neg : Bool) (digits cs : List Char) :
    Raises IsLoadError (numberTail neg digits cs) := by
  simp only [numberTail]
  split
  · exact .ite (fun _ => .ok _) fun _ => .error (.inl rfl)
  · exact .ok _

theorem raises_parseUnsigned (neg : Bool) (cs : List Char) :
    Raises IsLoadError (parseUnsigned neg cs) := by
  cases cs with
  | nil => exact .error isLoadError_decode
  | cons d cs =>
    rw [parseUnsigned]
    exact .ite (fun _ => raises_numberTail _ _ _) fun _ =>
      .ite (fun _ => raises_numberTail _ _ _) fun _ => .error isLoadError_decode

theorem raises_parseScalar (cs : List Char) : Raises IsLoadError (parseScalar cs) := by
  rw [parseScalar.eq_def]
  split
  · exact .ok _
  · exact .ok _
  · exact .ok _
  · rw [parseNumber.eq_def]
    split <;> exact raises_parseUnsigned _ _

mutual
theorem raises_parseValue : ∀ (fuel limit : ℕ) (cs : List Char),
    Raises IsLoadError (parseValue fuel limit cs)
  | 0, _, _ => by
    rw [parseValue]
    exact .error isLoadError_decode
  | fuel + 1, limit, cs => by
    rw [parseValue.eq_def]
    split
    case h_1 => exact .error isLoadError_decode
    case h_2 => exact (raises_parseString _).bind fun _ _ => .ok _
    case h_3 | h_4 => exact .error (.inr rfl)
    case h_5 heq =>
      cases heq
      split
      · exact .ok _
      · exact (raises_parseMembers fuel _ _).bind fun _ _ => .ok _
    case h_6 heq =>
      cases heq
      split
      · exact .ok _
      · exact (raises_parseItems fuel _ _).bind fun _ _ => .ok _
    case h_7 => exact raises_parseScalar _
theorem raises_parseItems : ∀ (fuel limit : ℕ) (cs : List Char),
    Raises IsLoadError (parseItems fuel limit cs)
  | 0, _, _ => by
    rw [parseItems]
    exact .error isLoadError_decode
  | fuel + 1, limit, cs => by
    rw [parseItems.eq_def]
    refine (raises_parseValue fuel limit cs).bind fun ⟨_, rest⟩ _ => ?_
    simp only
    split
    · exact .ok _
    · exact (raises_parseItems fuel limit _).bind fun _ _ => .ok _
    · exact .error isLoadError_decode
theorem raises_parseMembers : ∀ (fuel limit : ℕ) (cs : List Char),
    Raises IsLoadError (parseMembers fuel limit cs)
  | 0, _, _ => by
    rw [parseMembers]
    · exact .error isLoadError_decode
    · simp
  | fuel + 1, limit, cs => by
    rw [parseMembers.eq_def]
    split
    case h_1 heq =>
      cases heq
      refine (raises_parseString _).bind fun ⟨_, rest⟩ _ => ?_
      simp only
      split
      · refine (raises_parseValue fuel _ _).bind fun ⟨_, rest⟩ _ => ?_
        simp only
        split
        · exact .ok _
        · exact (raises_parseMembers fuel _ _).bind fun _ _ => .ok _
        · exact .error isLoadError_decode
      · exact .error isLoadError_decode
    case h_2 => exact .error isLoadError_decode
end

/-- **Reading.**  `json.loads` raises a `ValueError` or a `RecursionError`. -/
theorem raises_loads (limit : ℕ) (text : List Char) : Raises IsLoadError (loads limit text) := by
  rw [loads.eq_def]
  split
  · exact .error isLoadError_decode
  · exact (raises_parseValue _ _ _).bind fun _ _ =>
      .ite (fun _ => .ok _) fun _ => .error isLoadError_decode

/-- Opening one bracket too many exhausts the stack. -/
theorem parseValue_brackets (limit : ℕ) {fuel : ℕ} (hfuel : 2 * limit < fuel) :
    parseValue fuel limit (List.replicate (limit + 1) '[') = .error recursionLimitError := by
  induction limit generalizing fuel with
  | zero =>
    obtain ⟨fuel, rfl⟩ : ∃ n, fuel = n + 1 := ⟨fuel - 1, by omega⟩
    rfl
  | succ limit ih =>
    obtain ⟨fuel, rfl⟩ : ∃ n, fuel = n + 2 := ⟨fuel - 2, by omega⟩
    have hspace : skipSpace (List.replicate (limit + 1) '[') = '[' :: List.replicate limit '[' := by
      rw [List.replicate_succ, skipSpace, List.dropWhile_cons_of_neg (by decide)]
    have hitems : parseItems (fuel + 1) limit ('[' :: List.replicate limit '[')
        = .error recursionLimitError := by
      rw [← List.replicate_succ, parseItems, ih (by omega), Except.error_bind]
    rw [List.replicate_succ, parseValue]
    simp only [hspace]
    split
    case h_1 heq => exact absurd (List.cons.inj heq).1 (by decide)
    case h_2 =>
      rw [hitems]
      rfl

theorem loads_brackets (limit : ℕ) :
    loads limit (List.replicate (limit + 1) '[') = .error recursionLimitError := by
  have hspace : skipSpace (List.replicate (limit + 1) '[') = List.replicate (limit + 1) '[' := by
    rw [List.replicate_succ, skipSpace, List.dropWhile_cons_of_neg (by decide)]
  rw [loads.eq_def]
  split
  case h_1 heq => cases heq
  case h_2 =>
    rw [hspace, parseValue_brackets limit (by rw [List.length_replicate]; omega)]
    rfl

/-! ### Writing -/

mutual
theorem raises_jsonValue : ∀ j : Json, Raises IsValueError (jsonValue j)
  | .null | .bool _ | .int _ => .ok _
  | .float _ _ => .ite (fun _ => .error rfl) fun _ => .error rfl
  | .str _ => .ite (fun _ => .ok _) fun _ => .error rfl
  | .arr items => raises_jsonItems items
  | .obj entries => raises_jsonEntries entries
theorem raises_jsonItems : ∀ items : List Json, Raises IsValueError (jsonItems items)
  | [] => .ok _
  | j :: items => (raises_jsonValue j).bind fun _ _ => raises_jsonItems items
theorem raises_jsonEntries : ∀ entries : List (PyStr × Json), Raises IsValueError (jsonEntries entries)
  | [] => .ok _
  | (_, v) :: entries => (raises_jsonValue v).bind fun _ _ => raises_jsonEntries entries
end

end Json

end Agora
