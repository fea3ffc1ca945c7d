import Agora.Formalization.Walk
import Mathlib.Algebra.BigOperators.Group.List.Basic
import Mathlib.Algebra.Group.Pi.Basic

namespace Agora.Formalization

open Marl (Text)

/-!
# Units and dimensions

A unit is the product of its factors, and a factor is a name with an exponent.  Its dimension is the
vector of the exponents (`dimensionOf`).  `unitMultiply` sorts the factors of both sides and never
adds exponents up, so a product of units is known by its factors as they are written
(`writtenFactors`, `unitMultiply_written`), and these say more than its dimension does.
-/

/-! ### Factors -/

/-- `unit.split("*")`. -/
def unitFactors (unit : String) : List String := (splitAt '*' unit.toList).map String.ofList

theorem splitAt_eq_splitOn (c : Char) (cs : List Char) : splitAt c cs = cs.splitOn c := by
  induction cs with
  | nil => rfl
  | cons d cs ih =>
    rw [splitAt, ih, List.splitOn_cons_eq_if_modifyHead]
    cases hparts : cs.splitOn c with
    | nil => exact absurd hparts (List.splitOn_ne_nil c cs)
    | cons part parts => by_cases hd : d = c <;> simp [hd]

theorem not_mem_of_mem_splitAt {c : Char} {cs part : List Char} (h : part ∈ splitAt c cs) :
    c ∉ part := by
  induction cs generalizing part with
  | nil =>
    rw [List.mem_singleton.mp h]
    exact List.not_mem_nil
  | cons d cs ih =>
    rw [splitAt] at h
    split at h
    case h_1 hnil =>
      exact absurd ((splitAt_eq_splitOn c cs).symm.trans hnil) (List.splitOn_ne_nil c cs)
    case h_2 first parts hparts =>
      rw [hparts] at ih
      by_cases hd : d = c
      · rw [if_pos hd, List.mem_cons] at h
        rcases h with rfl | h
        · exact List.not_mem_nil
        · exact ih h
      · rw [if_neg hd, List.mem_cons] at h
        rcases h with rfl | h
        · rw [List.mem_cons, not_or]
          exact ⟨fun h => hd h.symm, ih List.mem_cons_self⟩
        · exact ih (List.mem_cons_of_mem _ h)

theorem toList_joinWith (parts : List String) :
    (joinWith "*" parts).toList = ['*'].intercalate (parts.map String.toList) := by
  induction parts with
  | nil => rfl
  | cons part parts ih =>
    cases parts with
    | nil => simp [joinWith]
    | cons other parts =>
      show (part ++ "*" ++ joinWith "*" (other :: parts)).toList = _
      rw [String.toList_append, String.toList_append, ih]
      simp [List.intercalate]

theorem unitFactors_ne_nil (unit : String) : unitFactors unit ≠ [] := by
  rw [unitFactors, splitAt_eq_splitOn]
  exact fun h => List.splitOn_ne_nil _ _ (List.map_eq_nil_iff.mp h)

theorem not_mem_of_mem_unitFactors {unit factor : String} (h : factor ∈ unitFactors unit) :
    '*' ∉ factor.toList := by
  obtain ⟨part, hpart, rfl⟩ := List.mem_map.mp h
  rw [String.toList_ofList]
  exact not_mem_of_mem_splitAt hpart

/-- A unit is its factors joined. -/
theorem joinWith_unitFactors (unit : String) : joinWith "*" (unitFactors unit) = unit := by
  apply String.toList_inj.mp
  have hmap : (unitFactors unit).map String.toList = unit.toList.splitOn '*' := by
    rw [unitFactors, List.map_map, ← splitAt_eq_splitOn]
    exact List.map_id'' (fun _ => String.toList_ofList) _
  rw [toList_joinWith, hmap, List.intercalate_splitOn]

theorem unitFactors_joinWith {factors : List String} (hne : factors ≠ [])
    (h : ∀ factor ∈ factors, '*' ∉ factor.toList) :
    unitFactors (joinWith "*" factors) = factors := by
  have hne' : factors.map String.toList ≠ [] := fun hnil => hne (List.map_eq_nil_iff.mp hnil)
  rw [unitFactors, splitAt_eq_splitOn, toList_joinWith,
    List.splitOn_intercalate '*' (by simpa using h) hne', List.map_map]
  exact List.map_id'' (fun _ => String.ofList_toList) _

/-! ### Dimensions -/

/-- The exponent of every name. -/
abbrev Dimension := String → ℤ

/-- A factor is its name to the power of its exponent, which is 1 when it is not written. -/
def factorDimension (factor : String) : Dimension :=
  match factor.toList.span (· ≠ '^') with
  | (name, []) => Pi.single (String.ofList name) 1
  | (name, _ :: exponent) => Pi.single (String.ofList name) (wholeValue exponent)

/-- The product of the factors. -/
def productDimension (factors : List String) : Dimension := (factors.map factorDimension).sum

/-- The dimension of a unit; `1` is the empty product. -/
def dimensionOf (unit : String) : Dimension :=
  if unit = "1" then 0 else productDimension (unitFactors unit)

theorem productDimension_append (factors others : List String) :
    productDimension (factors ++ others) = productDimension factors + productDimension others := by
  rw [productDimension, List.map_append, List.sum_append]
  rfl

theorem productDimension_perm {factors others : List String} (h : factors.Perm others) :
    productDimension factors = productDimension others :=
  (h.map factorDimension).sum_eq

/-! ### Products of units -/

/-- The factors of a product of units as they are written: those of one unit in their order, and
    those of several units sorted. -/
def writtenFactors : List String → List String
  | [unit] => unitFactors unit
  | units => (units.flatMap unitFactors).insertionSort (· ≤ ·)

theorem writtenFactors_perm (units : List String) :
    (writtenFactors units).Perm (units.flatMap unitFactors) := by
  unfold writtenFactors
  split
  · rw [List.flatMap_singleton]
  · exact List.perm_insertionSort _ _

theorem writtenFactors_ne_nil {units : List String} (h : units ≠ []) :
    writtenFactors units ≠ [] := by
  intro hnil
  have hperm := writtenFactors_perm units
  rw [hnil, List.nil_perm, List.flatMap_eq_nil_iff] at hperm
  obtain ⟨unit, hunit⟩ := List.exists_mem_of_ne_nil units h
  exact unitFactors_ne_nil unit (hperm unit hunit)

theorem not_mem_of_mem_writtenFactors {units : List String} {factor : String}
    (h : factor ∈ writtenFactors units) : '*' ∉ factor.toList := by
  obtain ⟨unit, -, hfactor⟩ := List.mem_flatMap.mp ((writtenFactors_perm units).mem_iff.mp h)
  exact not_mem_of_mem_unitFactors hfactor

theorem unitFactors_written {units : List String} (h : units ≠ []) :
    unitFactors (joinWith "*" (writtenFactors units)) = writtenFactors units :=
  unitFactors_joinWith (writtenFactors_ne_nil h) fun _ => not_mem_of_mem_writtenFactors

/-- Products are written alike when they have the same factors as they are written. -/
theorem joinWith_written_inj {units others : List String} (h : units ≠ []) (h' : others ≠ []) :
    joinWith "*" (writtenFactors units) = joinWith "*" (writtenFactors others)
      ↔ writtenFactors units = writtenFactors others := by
  constructor
  · intro heq
    rw [← unitFactors_written h, ← unitFactors_written h', heq]
  · exact congrArg _

/-- **Products.**  Multiplying two products that are not `1` writes the product of all units. -/
theorem unitMultiply_written {units others : List String} (h : units ≠ []) (h' : others ≠ [])
    (hone : joinWith "*" (writtenFactors units) ≠ "1")
    (hone' : joinWith "*" (writtenFactors others) ≠ "1") :
    unitMultiply (joinWith "*" (writtenFactors units)) (joinWith "*" (writtenFactors others))
      = joinWith "*" (writtenFactors (units ++ others)) := by
  have hmany : writtenFactors (units ++ others)
      = ((units ++ others).flatMap unitFactors).insertionSort (· ≤ ·) := by
    match units, others, h, h' with
    | _ :: _ :: _, _, _, _ => rfl
    | [_], _ :: _, _, _ => rfl
  rw [unitMultiply, if_neg hone, if_neg hone', hmany, List.map_append]
  congr 1
  show (unitFactors (joinWith "*" (writtenFactors units))
    ++ unitFactors (joinWith "*" (writtenFactors others))).insertionSort (· ≤ ·) = _
  rw [unitFactors_written h, unitFactors_written h', List.flatMap_append]
  apply List.Perm.eq_of_sortedLE (List.sortedLE_insertionSort) (List.sortedLE_insertionSort)
  exact ((List.perm_insertionSort _ _).trans
    ((writtenFactors_perm units).append (writtenFactors_perm others))).trans
    (List.perm_insertionSort _ _).symm

/-! ### Proper units -/

/-- A unit other than `1`. -/
structure ProperUnit (unit : String) : Prop where
  ne_one : unit ≠ "1"
  factors : ∀ factor ∈ unitFactors unit, isUnitFactor factor.toList = true

theorem properUnit_of_isUnit {unit : String} (h : isUnit unit = true) (hone : unit ≠ "1") :
    ProperUnit unit := by
  rw [isUnit, Bool.or_eq_true, decide_eq_true_eq, List.all_eq_true] at h
  refine ⟨hone, fun factor hfactor => ?_⟩
  obtain ⟨part, hpart, rfl⟩ := List.mem_map.mp hfactor
  rw [String.toList_ofList]
  exact (h.resolve_left hone) part hpart

/-- A product of proper units is not `1`. -/
theorem written_ne_one {units : List String} (hne : units ≠ [])
    (h : ∀ unit ∈ units, ProperUnit unit) : joinWith "*" (writtenFactors units) ≠ "1" := by
  intro hone
  have hfactors := unitFactors_written hne
  rw [hone] at hfactors
  have hmem : "1" ∈ units.flatMap unitFactors := by
    rw [← (writtenFactors_perm units).mem_iff, ← hfactors]
    decide
  obtain ⟨unit, hunit, hfactor⟩ := List.mem_flatMap.mp hmem
  have := (h unit hunit).factors _ hfactor
  revert this
  decide

/-- The dimension of a product of units. -/
def unitsDimension (units : List String) : Dimension := productDimension (units.flatMap unitFactors)

theorem unitsDimension_append (units others : List String) :
    unitsDimension (units ++ others) = unitsDimension units + unitsDimension others := by
  rw [unitsDimension, List.flatMap_append, productDimension_append]
  rfl

/-- Products that are written alike have one dimension. -/
theorem unitsDimension_eq_of_written {units others : List String}
    (h : writtenFactors units = writtenFactors others) :
    unitsDimension units = unitsDimension others := by
  rw [unitsDimension, unitsDimension, ← productDimension_perm (writtenFactors_perm units),
    ← productDimension_perm (writtenFactors_perm others), h]

/-- A product of units as it is written, if it is not empty. -/
def writtenUnit? (units : List String) : Option String :=
  if units = [] then none else some (joinWith "*" (writtenFactors units))

end Agora.Formalization
