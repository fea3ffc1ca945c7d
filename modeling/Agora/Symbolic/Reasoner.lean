import Agora.Lib.Smt
import Agora.Symbolic.Port

namespace Agora.Symbolic

open Formalization Smt
open Marl (Text Hash)

/-!
# The Z3 adapter

A validated revision is translated to solver terms.  The conjuncts of the formula are asserted under
tracking labels and the labels are assumed, so that an unsatisfiable core names conjuncts by their
paths.  The solver is a parameter.
-/

abbrev Outcome := Except SymbolicReasoningError

def inputError {α : Type} (message : String) : Outcome α := .error (.input message .invalidInput)

/-- What any exception inside `_solve` becomes. -/
def solverFailed {α : Type} : Outcome α := .error (.solver "symbolic solver failed" .solverFailure)

/-- Any exception inside `_solve` that is not one of the port's. -/
def guarded {α : Type} : Py α → Outcome α
  | .ok a => .ok a
  | .error _ => solverFailed

/-! ### Translation -/

/-- `_Translated`: an expression with its sort. -/
inductive Translated where
  | bool (f : Formula)
  | num (s : NumSort) (a : Arith s)

def Translated.sort : Translated → SymbolSort
  | .bool _ => .boolean
  | .num .int _ => .integer
  | .num .real _ => .real

/-- The constant of a declaration. -/
def translateDeclaration (declaration : SymbolDeclaration) : Translated :=
  match declaration.sort with
  | .boolean => .bool (.const declaration.name.text)
  | .integer => .num .int (.const declaration.name.text .int)
  | .real => .num .real (.const declaration.name.text .real)

/-- The dictionary of symbols, in insertion order. -/
abbrev Symbols := List (SymbolName × Translated)

def Symbols.get? (symbols : Symbols) (name : SymbolName) : Option Translated :=
  (symbols.find? fun entry => entry.1 = name).map Prod.snd

/-- `_translate_declarations`, with the symbols so far. -/
def translateDeclarations : List SymbolDeclaration → Symbols → Outcome Symbols
  | [], symbols => .ok symbols
  | declaration :: declarations, symbols =>
    if (symbols.get? declaration.name).isSome then
      inputError ("duplicate symbol declaration: " ++ declaration.name.text)
    else translateDeclarations declarations
      (symbols ++ [(declaration.name, translateDeclaration declaration)])

/-- `z3.ToReal` where it is needed. -/
def liftReal : {s : NumSort} → Arith s → Arith .real
  | .int, a => .toReal a
  | .real, a => a

/-- Two numeric terms of one sort: an integer next to a real is converted. -/
def coerce : {s t : NumSort} → Arith s → Arith t → (u : NumSort) × Arith u × Arith u
  | .int, .int, a, b => ⟨.int, a, b⟩
  | .int, .real, a, b => ⟨.real, .toReal a, b⟩
  | .real, .int, a, b => ⟨.real, a, .toReal b⟩
  | .real, .real, a, b => ⟨.real, a, b⟩

/-- An arithmetic operation on two terms. -/
def arithmetic (op : {s : NumSort} → Arith s → Arith s → Arith s) {s t : NumSort} (a : Arith s)
    (b : Arith t) : Translated :=
  let ⟨u, a, b⟩ := coerce a b
  .num u (op a b)

/-- A comparison of two terms. -/
def comparison (op : {s : NumSort} → Arith s → Arith s → Formula) {s t : NumSort} (a : Arith s)
    (b : Arith t) : Formula :=
  let ⟨_, a, b⟩ := coerce a b
  op a b

/-- `_translate_operation`, on as many arguments as the operator takes. -/
def translateOperation (operator : Operator) (arguments : List Translated) (path : String) :
    Outcome Translated :=
  match operator, arguments with
  | .not, [.bool f] => .ok (.bool (.not f))
  | .not, _ => inputError ("NOT requires BOOLEAN at " ++ path)
  | .and, [.bool f, .bool g] => .ok (.bool (.and f g))
  | .or, [.bool f, .bool g] => .ok (.bool (.or f g))
  | .and, _ | .or, _ => inputError (operator.value ++ " requires BOOLEAN operands at " ++ path)
  | .neg, [.num s a] => .ok (.num s (.neg a))
  | .neg, _ => inputError ("NEG requires a numeric operand at " ++ path)
  | .add, [.num _ a, .num _ b] => .ok (arithmetic .add a b)
  | .sub, [.num _ a, .num _ b] => .ok (arithmetic .sub a b)
  | .mul, [.num _ a, .num _ b] => .ok (arithmetic .mul a b)
  | .div, [.num _ a, .num _ b] => .ok (.num .real (.div (liftReal a) (liftReal b)))
  | .add, _ | .sub, _ | .mul, _ | .div, _ =>
    inputError (operator.value ++ " requires numeric operands at " ++ path)
  | .eq, [.bool f, .bool g] => .ok (.bool (.iff f g))
  | .eq, [.num _ a, .num _ b] => .ok (.bool (comparison .eq a b))
  | .ne, [.bool f, .bool g] => .ok (.bool (.not (.iff f g)))
  | .ne, [.num _ a, .num _ b] => .ok (.bool (.not (comparison .eq a b)))
  | .eq, _ | .ne, _ =>
    inputError (operator.value ++ " operands have incompatible sorts at " ++ path)
  | .lt, [.num _ a, .num _ b] => .ok (.bool (comparison .lt a b))
  | .le, [.num _ a, .num _ b] => .ok (.bool (comparison .le a b))
  | .gt, [.num _ a, .num _ b] => .ok (.bool (comparison .gt a b))
  | .ge, [.num _ a, .num _ b] => .ok (.bool (comparison .ge a b))
  | .lt, _ | .le, _ | .gt, _ | .ge, _ =>
    inputError (operator.value ++ " requires numeric operands at " ++ path)

section Translate

variable (symbols : Symbols)

mutual
def translateNode : ASTNode → String → Outcome Translated
  | .boolean value, _ => .ok (.bool (.val value))
  | .integer value, _ => .ok (.num .int (.intVal value.value))
  | .real value, _ => .ok (.num .real (.realVal value.value))
  | .symbol name, path =>
    match symbols.get? name with
    | some translated => .ok translated
    | none => inputError ("undeclared symbol at " ++ path ++ ": " ++ name.text)
  | .operation operator arguments, path =>
    if arguments.length ≠ operator.arity then
      inputError ("invalid arity at " ++ path ++ ": " ++ operator.value ++ " requires "
        ++ toString operator.arity ++ " arguments")
    else do
      let translated ← translateItems arguments path 0
      translateOperation operator translated path
def translateItems : List ASTNode → String → ℕ → Outcome (List Translated)
  | [], _, _ => .ok []
  | node :: nodes, path, index => do
    let translated ← translateNode node (argumentPath path index)
    let others ← translateItems nodes path (index + 1)
    pure (translated :: others)
end

end Translate

def requireBooleanRoot : Translated → Outcome Formula
  | .bool f => .ok f
  | .num _ _ => inputError "formalization root must be BOOLEAN"

/-- `_validate_boundary`. -/
def validateBoundary (model : FormalizationRevision) : Outcome Unit :=
  match astHash model.ast with
  | .error _ => inputError "invalid symbolic input"
  | .ok hash =>
    if model.hash ≠ hash then inputError "ast_hash does not match canonical AST"
    else if model.canonicalRendering ≠ renderAst model.ast then
      inputError "canonical rendering does not match AST"
    else if ¬ (validateRevision model).success then
      inputError ("formalization failed structural validation: "
        ++ joinWith ", " ((((validateRevision model).issues.map (·.code)).dedup).insertionSort
          (· ≤ ·)))
    else .ok ()

/-! ### Tracked assertions -/

mutual
/-- `_tracked_assertions`: the conjuncts of a formula by path. -/
def flatten : ASTNode → Formula → String → Option (List (String × Formula))
  | .operation operator arguments, translated, path =>
    if operator = .and then flattenItems arguments translated path 0
    else some [(path, translated)]
  | .boolean _, translated, path | .integer _, translated, path | .real _, translated, path
  | .symbol _, translated, path => some [(path, translated)]
def flattenItems : List ASTNode → Formula → String → ℕ → Option (List (String × Formula))
  | [], _, _, _ => some []
  | node :: nodes, translated, path, index => do
    let argument ← translated.arg index
    let members ← flatten node argument (argumentPath path index)
    let others ← flattenItems nodes translated path (index + 1)
    pure (members ++ others)
end

def assertionLabel (index : ℕ) : String := "agora_assertion_" ++ toString index

/-- A conjunct under its label. -/
structure TrackedAssertion where
  path : String
  label : String
  formula : Formula

/-- The labels by position.  The paths are distinct (`nodup_paths`), so the dictionary of labels by
    path is this list. -/
def label (assertions : List (String × Formula)) : List TrackedAssertion :=
  assertions.mapIdx fun index (path, formula) => ⟨path, assertionLabel index, formula⟩

/-- The labelled conjuncts. -/
def pairs (assertions : List (String × Formula)) : List (String × Formula) :=
  (label assertions).map fun a => (a.label, a.formula)

/-! ### Witnesses and cores -/

/-- `re.fullmatch(r"\(root-obj .+ ([1-9][0-9]*)\)", text, re.DOTALL)`: the number at the end. -/
def rootIndex? (text : List Char) : Option ℕ :=
  if text.take 10 = "(root-obj ".toList ∧ text.getLast? = some ')' then
    let inner := (text.drop 10).dropLast.reverse
    let (digits, rest) := inner.span Char.isDigit
    if isPositive digits.reverse ∧ rest.head? = some ' ' ∧ 2 ≤ rest.length then
      some (digitsValue digits.reverse)
    else none
  else none

/-- The fields of an encoded value. -/
def encodeFields (sort : SymbolSort) (value : ModelValue) : Outcome SymbolicValue :=
  match sort, value with
  | .boolean, value =>
    .ok { kind := .boolean
          boolean := some (match value with | .bool b => b | _ => false) }
  | _, .int n => do
    let numerator ← guarded (pyStr n)
    pure { kind := .integer, numerator := some numerator, denominator := some "1" }
  | _, .rational q => do
    let numerator ← guarded (pyStr q.num)
    let denominator ← guarded (pyStr q.den)
    pure { kind := .rational, numerator := some numerator, denominator := some denominator }
  | _, .algebraic x =>
    match rootIndex? x.sexpr with
    | none =>
      .error (.solver "symbolic solver produced an unsupported algebraic witness" .solverFailure)
    | some index => do
      let polynomial ← guarded (x.poly.mapM pyStr)
      pure { kind := .algebraic, polynomial, rootIndex := some index }
  | _, _ => .error (.solver "symbolic solver produced a non-rational witness" .solverFailure)

/-- The value of a symbol in a model, encoded. -/
def encodeValue (sort : SymbolSort) (value : ModelValue) : Outcome SymbolicValue := do
  let encoded ← encodeFields sort value
  guarded encoded.check
  pure encoded

/-- The value of an expression in a model: the symbols are constants. -/
def modelValue (model : Model) : Translated → ModelValue
  | .bool (.const name) => model.bool name
  | .num .int (.const name .int) => model.int name
  | .num .real (.const name .real) => model.real name
  | _ => .other

/-- `_witness`: the value of every symbol, by name. -/
def witness (model : Model) (symbols : Symbols) : Outcome (List SymbolicWitnessBinding) :=
  (symbols.insertionSort fun a b => a.1.text ≤ b.1.text).mapM fun (name, translated) => do
    let value ← encodeValue translated.sort (modelValue model translated)
    pure { name, value }

/-- `f.decl().name()` of a label. -/
def declName : Formula → Option String
  | .const name => some name
  | _ => none

/-- `sorted(path for path, label in labels.items() if label.decl().name() in selected)`. -/
def corePaths (core : List Formula) (assertions : List TrackedAssertion) : List String :=
  ((assertions.filter (·.label ∈ core.filterMap declName)).map (·.path)).insertionSort (· ≤ ·)

/-- `_core`: the paths of the labels in the core. -/
def coreMembers (core : List Formula) (assertions : List TrackedAssertion) :
    Outcome (List SymbolicCoreMember) :=
  if corePaths core assertions = [] then
    .error (.solver "symbolic solver returned an empty unsat core" .solverFailure)
  else
    (corePaths core assertions).mapM fun path =>
      if h : isAstPath path = true then .ok ⟨path, h⟩ else solverFailed

/-! ### Evaluation -/

/-- The characters `_SAFE_REASON` keeps. -/
def isSafe (c : Char) : Bool :=
  c.isAlphanum || c ∈ [' ', '_', '.', ',', ':', ';', '(', ')', '\'', '/', '-']

/-- `_safe_reason`. -/
def safeReason (value : String) : String :=
  let cleaned := value.toList.map fun c => if isSafe c then c else '?'
  let stripped := ((cleaned.dropWhile isSpace).reverse.dropWhile isSpace).reverse
  if stripped.take 200 = [] then "solver returned no reason" else String.ofList (stripped.take 200)

structure Z3SymbolicReasoner where
  timeoutMs : ℕ
  solver : Solver
  version : String
  valid : 1 ≤ timeoutMs ∧ timeoutMs ≤ 60000

/-- What `_solve` returns: the status, a reason, a witness and a core. -/
structure Answer where
  status : SymbolicStatus
  reason : Option String := none
  witness : List SymbolicWitnessBinding := []
  core : List SymbolicCoreMember := []

namespace Z3SymbolicReasoner

/-- The query: every label implies its conjunct, under all labels. -/
def ask (r : Z3SymbolicReasoner) (assertions : List (String × Formula)) : CheckResult :=
  r.solver.check r.timeoutMs (tracked (pairs assertions))
    ((label assertions).map fun a => .const a.label)

/-- `_solve`. -/
def solve (r : Z3SymbolicReasoner) (formula : Formula) (symbols : Symbols) (ast : ASTNode) :
    Outcome Answer :=
  match flatten ast formula "ast" with
  | none => solverFailed
  | some assertions =>
    match r.ask assertions with
    | .sat model => do
      let bindings ← witness model symbols
      pure { status := .sat, witness := bindings }
    | .unsat core => do
      let members ← coreMembers core (label assertions)
      pure { status := .unsat, core := members }
    | .unknown reason => .ok { status := .unknown, reason := some (safeReason reason) }
    | .unrecognized =>
      .error (.solver "symbolic solver returned an unrecognized result" .solverFailure)
    | .raised => solverFailed

/-- The result for a revision. -/
def result (r : Z3SymbolicReasoner) (model : FormalizationRevision) (answer : Answer) :
    SymbolicReasoningResult where
  status := answer.status
  formalizationRevisionId := model.id
  hash := model.hash
  solver := "z3"
  solverVersion := r.version
  timeoutMs := r.timeoutMs
  configurationId := "z3:timeout_ms=" ++ toString r.timeoutMs
  reasonUnknown := answer.reason
  witness := answer.witness
  unsatCore := answer.core

/-- `_evaluate_sync`. -/
def evaluate (r : Z3SymbolicReasoner) (model : FormalizationRevision) :
    Outcome SymbolicReasoningResult := do
  validateBoundary model
  let symbols ← translateDeclarations model.symbols []
  let translated ← translateNode symbols model.ast "ast"
  let formula ← requireBooleanRoot translated
  let answer ← r.solve formula symbols model.ast
  if (r.result model answer).Coherent then .ok (r.result model answer)
  else inputError "invalid symbolic input"

end Z3SymbolicReasoner

end Agora.Symbolic
