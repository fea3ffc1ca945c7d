import Agora.Lib.JsonOrder

namespace Agora

/-!
# How deep a text may be nested

The parser reads the canonical text of a value exactly under the limits that the value is nested
within (`Json.loads_canonical_iff`).
-/

namespace Json

theorem depth_of_parseNumber {cs rest : List Char} {j : Json} (h : parseNumber cs = .ok (j, rest)) :
    j.depth = 0 := by
  have htail {neg : Bool} {digits ds : List Char} (h : numberTail neg digits ds = .ok (j, rest)) :
      j.depth = 0 := by
    unfold numberTail at h
    simp only at h
    split at h
    · split at h
      · cases h
        rfl
      · cases h
    · cases h
      rfl
  have hunsigned {neg : Bool} {ds : List Char} (h : parseUnsigned neg ds = .ok (j, rest)) :
      j.depth = 0 := by
    unfold parseUnsigned at h
    split at h
    · cases h
    · split_ifs at h
      · exact htail h
      · exact htail h
  unfold parseNumber at h
  split at h
  · exact hunsigned h
  · exact hunsigned h

theorem depth_of_parseScalar {cs rest : List Char} {j : Json} (h : parseScalar cs = .ok (j, rest)) :
    j.depth = 0 := by
  unfold parseScalar at h
  split at h
  case h_4 => exact depth_of_parseNumber h
  all_goals
    cases h
    rfl

/-- What is read with some levels of nesting left is not nested deeper. -/
theorem depth_le_of_parse (fuel : ℕ) :
    (∀ {n : ℕ} {cs rest : List Char} {j : Json}, parseValue fuel n cs = .ok (j, rest) → j.depth ≤ n)
      ∧ (∀ {n : ℕ} {cs rest : List Char} {items : List Json},
        parseItems fuel n cs = .ok (items, rest) → depthItems items ≤ n)
      ∧ ∀ {n : ℕ} {cs rest : List Char} {entries : List (PyStr × Json)},
        parseMembers fuel n cs = .ok (entries, rest) → depthEntries entries ≤ n := by
  induction fuel with
  | zero =>
    refine ⟨?_, ?_, ?_⟩ <;>
      (intro n cs rest r h; simp only [parseValue, parseItems, parseMembers, reduceCtorEq] at h)
  | succ fuel ih =>
    obtain ⟨ihValue, ihItems, ihMembers⟩ := ih
    refine ⟨?_, ?_, ?_⟩
    · intro n cs rest j h
      cases cs with
      | nil => exact absurd h (by simp [parseValue, parseScalar, parseNumber, parseUnsigned])
      | cons c cs =>
        by_cases hquote : c = '"'
        · subst hquote
          rw [parseValue] at h
          obtain ⟨x, -, h⟩ := Except.bind_eq_ok.mp h
          cases h
          exact Nat.zero_le n
        by_cases hbrace : c = '{'
        · subst hbrace
          cases n with
          | zero => cases h
          | succ n =>
            rw [parseValue] at h
            split at h
            · cases h
              exact Nat.le_add_left 1 n
            · obtain ⟨⟨entries, rest⟩, hentries, h⟩ := Except.bind_eq_ok.mp h
              cases h
              exact Nat.succ_le_succ (ihMembers hentries)
        by_cases hbracket : c = '['
        · subst hbracket
          cases n with
          | zero => cases h
          | succ n =>
            rw [parseValue] at h
            split at h
            · cases h
              exact Nat.le_add_left 1 n
            · obtain ⟨⟨items, rest⟩, hitems, h⟩ := Except.bind_eq_ok.mp h
              cases h
              exact Nat.succ_le_succ (ihItems hitems)
        rw [parseValue_scalar hquote hbrace hbracket] at h
        rw [depth_of_parseScalar h]
        exact Nat.zero_le n
    · intro n cs rest items h
      rw [parseItems] at h
      obtain ⟨⟨j, mid⟩, hj, h⟩ := Except.bind_eq_ok.mp h
      simp only at h
      split at h
      · cases h
        exact max_le (ihValue hj) (Nat.zero_le n)
      · obtain ⟨⟨js, mid'⟩, hjs, h⟩ := Except.bind_eq_ok.mp h
        cases h
        exact max_le (ihValue hj) (ihItems hjs)
      · cases h
    · intro n cs rest entries h
      cases cs with
      | nil => cases h
      | cons c cs =>
        by_cases hquote : c = '"'
        · subst hquote
          rw [parseMembers] at h
          obtain ⟨⟨k, mid⟩, -, h⟩ := Except.bind_eq_ok.mp h
          simp only at h
          split at h
          · obtain ⟨⟨v, mid'⟩, hv, h⟩ := Except.bind_eq_ok.mp h
            simp only at h
            split at h
            · cases h
              exact max_le (ihValue hv) (Nat.zero_le n)
            · obtain ⟨⟨es, mid''⟩, hes, h⟩ := Except.bind_eq_ok.mp h
              cases h
              exact max_le (ihValue hv) (ihMembers hes)
            · cases h
          · cases h
        · exact absurd h (by simp [parseMembers, hquote])

/-- A canonical text is read under the limits that its value is nested within. -/
theorem loads_canonical_iff {j : Json} (henc : j.encodable = true) (hnormal : j.Normal = true)
    {limit : ℕ} {v : Json} : loads limit j.canonical = .ok v ↔ v = j ∧ j.depth ≤ limit := by
  have hkeys := (normal_iff.mp hnormal).1
  constructor
  · intro h
    have hv := eq_normalize_of_loads henc hkeys (.inl rfl)
      (show loads limit (j.canonical ++ []) = .ok v by rwa [List.append_nil])
    rw [Normal.normalize_eq hnormal] at hv
    refine ⟨hv, ?_⟩
    rw [loads.eq_def] at h
    split at h
    · cases h
    · obtain ⟨⟨w, rest⟩, hw, -⟩ := Except.bind_eq_ok.mp h
      -- More room changes nothing, so what was read is the value itself.
      have hmore := (parse_limit_mono _).1 (le_max_left limit j.depth) hw
      have hparse := (readAs_canonical j henc).reads (2 * j.canonical.length + 2)
        (max limit j.depth) [] (by omega) (le_max_right _ _) stops_nil
      have hskip := skipSpace_canonical henc []
      rw [List.append_nil] at hparse hskip
      rw [hskip, hparse] at hmore
      have hdepth := (depth_le_of_parse _).1 hw
      rw [← (Prod.mk.inj (Except.ok.inj hmore)).1, Normal.normalize_eq hnormal] at hdepth
      exact hdepth
  · rintro ⟨rfl, hdepth⟩
    have h := loads_canonical henc hkeys hdepth (show [] = [] ∨ [] = ['\n'] from .inl rfl)
    rwa [List.append_nil, Normal.normalize_eq hnormal] at h

end Json
end Agora
