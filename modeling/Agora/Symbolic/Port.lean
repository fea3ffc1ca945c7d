import Agora.Formalization.Validation

namespace Agora.Symbolic

open Formalization
open Marl (Text Hash)

/-!
# The symbolic reasoning port

Solver-neutral values, witnesses, cores and results, with the checks of their constructors.
Numbers are exact: integers and reduced fractions as decimal texts, irrational roots as an integer
polynomial and the index of the root.
-/

/-! ### Errors -/

inductive SymbolicErrorKind where
  | invalidInput
  | unsupportedInput
  | solverFailure
deriving DecidableEq, Repr

/-- `SymbolicReasoningError`: its subclasses `SymbolicInputError` and `SymbolicSolverError`. -/
inductive SymbolicReasoningError where
  | input (message : String) (kind : SymbolicErrorKind)
  | solver (message : String) (kind : SymbolicErrorKind)
deriving DecidableEq

/-! ### Values -/

inductive SymbolicStatus where
  | sat
  | unsat
  | unknown
deriving DecidableEq, Repr

inductive SymbolicValueKind where
  | boolean
  | integer
  | rational
  | algebraic
deriving DecidableEq, Repr

structure SymbolicValue where
  kind : SymbolicValueKind
  boolean : Option Bool := none
  numerator : Option String := none
  denominator : Option String := none
  polynomial : List String := []
  rootIndex : Option ℕ := none
deriving DecidableEq

/-- `str(n)`: integers of more than 4300 digits have no text. -/
def pyStr (n : ℤ) : Py String :=
  if Json.isPrintable n then .ok (String.ofList (Json.intText n))
  else .error (.valueError "Exceeds the limit for integer string conversion")

/-- `int(text)` where `str(int(text)) == text`; another text raises sooner or later. -/
def pyInt (text : String) : Py ℤ :=
  if isWhole text.toList then .ok (wholeValue text.toList)
  else .error (.valueError "numeric value must use canonical base-10 integers")

namespace SymbolicValue

/-- The numeric part of `__post_init__`. -/
def checkNumeric (v : SymbolicValue) : Py Unit :=
  match v.boolean, v.numerator, v.denominator with
  | none, some numerator, some denominator =>
    if v.polynomial ≠ [] ∨ v.rootIndex ≠ none then
      .error (.valueError "rational values cannot contain algebraic fields")
    else do
      let n ← pyInt numerator
      let d ← pyInt denominator
      if d ≤ 0 then .error (.valueError "denominator must be positive")
      else if v.kind = .integer ∧ d ≠ 1 then .error (.valueError "INTEGER denominator must be 1")
      else if n.gcd d ≠ 1 then .error (.valueError "numeric value must be reduced")
      else pure ()
  | _, _, _ => .error (.valueError "numeric values require numerator and denominator")

/-- `__post_init__`. -/
def check (v : SymbolicValue) : Py Unit :=
  match v.kind with
  | .boolean =>
    if v.boolean = none ∨ v.numerator ≠ none ∨ v.denominator ≠ none ∨ v.polynomial ≠ []
        ∨ v.rootIndex ≠ none then
      .error (.valueError "BOOLEAN requires only boolean")
    else pure ()
  | .algebraic =>
    if v.boolean ≠ none ∨ v.numerator ≠ none ∨ v.denominator ≠ none ∨ v.polynomial.length < 2
        ∨ ¬ v.rootIndex.any (1 ≤ ·) then
      .error (.valueError "ALGEBRAIC requires polynomial coefficients and root index")
    else if ¬ v.polynomial.all (isWhole ·.toList) then
      .error (.valueError "polynomial coefficients must be canonical base-10 integers")
    else if v.polynomial.getLast? = some "0" then
      .error (.valueError "algebraic polynomial leading coefficient must be non-zero")
    else pure ()
  | .integer | .rational => v.checkNumeric

end SymbolicValue

/-- A value for a declared symbol. -/
structure SymbolicWitnessBinding where
  name : SymbolName
  value : SymbolicValue
deriving DecidableEq

/-- `(?:\.arguments\[[01]\])*`. -/
def isArguments : List Char → Bool
  | [] => true
  | '.' :: 'a' :: 'r' :: 'g' :: 'u' :: 'm' :: 'e' :: 'n' :: 't' :: 's' :: '[' :: d :: ']' :: rest =>
    (d = '0' || d = '1') && isArguments rest
  | _ => false

/-- `^ast(?:\.arguments\[[01]\])*$`. -/
def isAstPath (s : String) : Bool :=
  match s.toList with
  | 'a' :: 's' :: 't' :: rest => isArguments rest
  | _ => false

/-- `SymbolicCoreMember`: a path in the formula. -/
abbrev SymbolicCoreMember := Text isAstPath

/-! ### Results -/

structure SymbolicReasoningResult where
  status : SymbolicStatus
  formalizationRevisionId : UUID
  hash : Hash
  solver : String
  solverVersion : String
  timeoutMs : ℕ
  configurationId : String
  reasonUnknown : Option String
  witness : List SymbolicWitnessBinding
  unsatCore : List SymbolicCoreMember

/-- `__post_init__`: a reason, a witness and a core belong to one status each, and witness and core
    are sorted without repetition. -/
structure SymbolicReasoningResult.Coherent (r : SymbolicReasoningResult) : Prop where
  timeout : 0 < r.timeoutMs
  reason : match r.status with
    | .unknown => ∃ reason ∈ r.reasonUnknown, isBlank reason = false
    | _ => r.reasonUnknown = none
  witness : r.status ≠ .sat → r.witness = []
  core : r.status = .unsat ↔ r.unsatCore ≠ []
  witnessSorted : (r.witness.map (·.name.text)).Pairwise (· < ·)
  coreSorted : (r.unsatCore.map Text.text).Pairwise (· < ·)

instance (r : SymbolicReasoningResult) : Decidable r.Coherent :=
  haveI : Decidable (match r.status with
    | .unknown => ∃ reason ∈ r.reasonUnknown, isBlank reason = false
    | _ => r.reasonUnknown = none) := by split <;> infer_instance
  decidable_of_iff (0 < r.timeoutMs ∧ (match r.status with
      | .unknown => ∃ reason ∈ r.reasonUnknown, isBlank reason = false
      | _ => r.reasonUnknown = none) ∧ (r.status ≠ .sat → r.witness = [])
      ∧ (r.status = .unsat ↔ r.unsatCore ≠ []) ∧ (r.witness.map (·.name.text)).Pairwise (· < ·)
      ∧ (r.unsatCore.map Text.text).Pairwise (· < ·))
    ⟨fun ⟨h1, h2, h3, h4, h5, h6⟩ => ⟨h1, h2, h3, h4, h5, h6⟩,
      fun h => ⟨h.timeout, h.reason, h.witness, h.core, h.witnessSorted, h.coreSorted⟩⟩

end Agora.Symbolic
