import Agora.Formalization.Ast
import Mathlib.Data.List.Sort

namespace Agora.Formalization

open Marl (Text Hash)

/-!
# Structural validation of a revision

`validateRevision` walks the formula bottom up.  It infers a sort and a unit for every node and
collects issues by path; it evaluates nothing.
-/

structure ValidationIssue where
  code : String
  path : String
  message : String
deriving DecidableEq

/-- `sorted(issues, key=lambda item: (item.path, item.code, item.message))`. -/
def ValidationIssue.Le (a b : ValidationIssue) : Prop :=
  a.path < b.path ∨ a.path = b.path
    ∧ (a.code < b.code ∨ a.code = b.code ∧ a.message ≤ b.message)

instance (a b : ValidationIssue) : Decidable (a.Le b) := inferInstanceAs (Decidable (_ ∨ _))

/-- `f"{path}.arguments[{index}]"`. -/
def argumentPath (path : String) (index : ℕ) : String :=
  path ++ ".arguments[" ++ toString index ++ "]"

/-- `_unit_multiply`. -/
def unitMultiply (left right : String) : String :=
  if left = "1" then right
  else if right = "1" then left
  else joinWith "*" (((splitAt '*' left.toList ++ splitAt '*' right.toList).map String.ofList)
    |>.insertionSort (· ≤ ·))

/-- What the walk knows of a node: its sort, if any, and its unit, if any. -/
abbrev Inferred := Option SymbolSort × Option String

def isNumeric (s : SymbolSort) : Bool := s ≠ .boolean

/-- The units that matter, without none and `1`. -/
def effectiveUnits (units : List (Option String)) : List String :=
  units.filterMap fun unit => unit.filter (· ≠ "1")

/-- `Sort.REAL if Sort.REAL in sorts else Sort.INTEGER`. -/
def joinSorts (sorts : List SymbolSort) : SymbolSort := if .real ∈ sorts then .real else .integer

/-- `len(set(units)) > 1`. -/
def unitsDiffer (units : List String) : Bool := 1 < units.dedup.length

/-- Whether equality compares values of these sorts. -/
def areComparable (sorts : List SymbolSort) : Bool :=
  sorts[0]? = sorts[1]? || sorts.all isNumeric

/-- An issue at a path, when there is one. -/
def issueIf (condition : Bool) (code path message : String) : List ValidationIssue :=
  if condition then [⟨code, path, message⟩] else []

/-- The part of `walk` after the arguments: the sort and the unit of an operation. -/
def inferOperation (operator : Operator) (path : String) (sorts : List SymbolSort)
    (units : List (Option String)) : List ValidationIssue × SymbolSort × Option String :=
  let numeric := sorts.all isNumeric
  let effective := effectiveUnits units
  match operator with
  | .not =>
    (issueIf (sorts.head? ≠ some .boolean) "SORT_MISMATCH" path "NOT requires BOOLEAN",
      .boolean, none)
  | .and | .or =>
    (issueIf (sorts ≠ [.boolean, .boolean]) "SORT_MISMATCH" path
      (operator.value ++ " requires BOOLEAN"), .boolean, none)
  | .neg =>
    (issueIf (!sorts.head?.any isNumeric) "SORT_MISMATCH" path "NEG requires a numeric operand",
      sorts.headD .boolean, units.head?.join)
  | .add | .sub =>
    (issueIf (!numeric) "SORT_MISMATCH" path "arithmetic requires numeric operands"
      ++ issueIf (unitsDiffer effective) "UNIT_MISMATCH" path "ADD/SUB operands require equal units",
      joinSorts sorts, some (effective.headD "1"))
  | .mul =>
    (issueIf (!numeric) "SORT_MISMATCH" path "arithmetic requires numeric operands",
      .real, some (unitMultiply (units.head?.join.getD "1") ((units[1]?).join.getD "1")))
  | .div =>
    (issueIf (!numeric) "SORT_MISMATCH" path "arithmetic requires numeric operands"
      ++ issueIf ((units[1]?).join ≠ some "1") "UNSUPPORTED_UNIT_OPERATION" path
        "DIV divisor must be dimensionless",
      .real, units.head?.join)
  | .eq | .ne =>
    (issueIf (!areComparable sorts) "SORT_MISMATCH" path "equality operands have incompatible sorts"
      ++ issueIf (numeric && unitsDiffer effective) "UNIT_MISMATCH" path
        "equality operands require equal units",
      .boolean, none)
  | .lt | .le | .gt | .ge =>
    (issueIf (!numeric) "SORT_MISMATCH" path "ordering requires numeric operands"
      ++ issueIf (unitsDiffer effective) "UNIT_MISMATCH" path
        "ordering operands require equal units",
      .boolean, none)

section Walk

variable (declarations : List SymbolDeclaration)

/-- `declarations.get(name)`: the first declaration of a name counts. -/
def declaration? (name : SymbolName) : Option SymbolDeclaration :=
  declarations.find? fun symbol => symbol.name = name

mutual
/-- `walk`, with the issues it appends. -/
def walk : ASTNode → String → List ValidationIssue × Inferred
  | .boolean _, _ => ([], some .boolean, none)
  | .integer _, _ => ([], some .integer, none)
  | .real _, _ => ([], some .real, none)
  | .symbol name, path =>
    match declaration? declarations name with
    | none => ([⟨"UNDECLARED_SYMBOL", path, name.text⟩], none, none)
    | some symbol => ([], some symbol.sort, symbol.unit.map Text.text)
  | .operation operator arguments, path =>
    let (issues, inferred) := walkItems arguments path 0
    let arityIssues := issueIf (arguments.length ≠ operator.arity) "WRONG_ARITY" path
      (operator.value ++ " requires " ++ toString operator.arity ++ " arguments")
    if inferred.length ≠ operator.arity ∨ inferred.any (·.1.isNone) then
      (arityIssues ++ issues, none, none)
    else
      let (found, sort, unit) :=
        inferOperation operator path (inferred.filterMap Prod.fst) (inferred.map Prod.snd)
      (arityIssues ++ issues ++ found, some sort, unit)
def walkItems : List ASTNode → String → ℕ → List ValidationIssue × List Inferred
  | [], _, _ => ([], [])
  | node :: nodes, path, index =>
    let (issues, inferred) := walk node (argumentPath path index)
    let (rest, others) := walkItems nodes path (index + 1)
    (issues ++ rest, inferred :: others)
end

end Walk

/-- The names that are declared again, by position. -/
def duplicateIssues : List SymbolDeclaration → List SymbolName → ℕ → List ValidationIssue
  | [], _, _ => []
  | symbol :: symbols, seen, index =>
    issueIf (symbol.name ∈ seen) "DUPLICATE_SYMBOL" ("symbols[" ++ toString index ++ "]")
        symbol.name.text
      ++ duplicateIssues symbols (symbol.name :: seen) (index + 1)

/-- What validation returns of a revision. -/
structure FormalizationValidation where
  formalizationRevisionId : UUID
  hash : Hash
  success : Bool
  issues : List ValidationIssue

def validateRevision (revision : FormalizationRevision) : FormalizationValidation :=
  let (walked, rootSort, _) := walk revision.symbols revision.ast "ast"
  let issues := duplicateIssues revision.symbols [] 0 ++ walked
    ++ issueIf (rootSort.any (· ≠ .boolean)) "NON_BOOLEAN_ROOT" "ast"
      "formalization root must be BOOLEAN"
    ++ issueIf (revision.canonicalRendering ≠ renderAst revision.ast) "NONCANONICAL_RENDERING"
      "canonical_rendering" "rendering differs"
  { formalizationRevisionId := revision.id
    hash := revision.hash
    success := issues.isEmpty
    issues := issues.insertionSort ValidationIssue.Le }

end Agora.Formalization
