import Agora.Formalization.Validation
import Agora.Lib.Smt

namespace Agora.Formalization

open Smt (divide)

/-!
# What a formula means

Booleans are propositions and numbers are reals: an integer symbol takes integral values, and
division is exact.  Division by zero has no value of its own, so the meaning of a formula takes a
reading of it beside the values of the symbols.
-/

inductive Value where
  | bool (p : Prop)
  | num (x : ℝ)

/-- A value of every sort for every name. -/
structure Assignment where
  bool : SymbolName → Prop
  int : SymbolName → ℤ
  real : SymbolName → ℝ

/-- What an operation does with values of the sorts it takes. -/
noncomputable def combine (divZero : ℝ → ℝ) : Operator → List Value → Option Value
  | .not, [.bool p] => some (.bool ¬ p)
  | .and, [.bool p, .bool q] => some (.bool (p ∧ q))
  | .or, [.bool p, .bool q] => some (.bool (p ∨ q))
  | .neg, [.num x] => some (.num (- x))
  | .add, [.num x, .num y] => some (.num (x + y))
  | .sub, [.num x, .num y] => some (.num (x - y))
  | .mul, [.num x, .num y] => some (.num (x * y))
  | .div, [.num x, .num y] => some (.num (divide divZero x y))
  | .eq, [.bool p, .bool q] => some (.bool (p ↔ q))
  | .eq, [.num x, .num y] => some (.bool (x = y))
  | .ne, [.bool p, .bool q] => some (.bool ¬ (p ↔ q))
  | .ne, [.num x, .num y] => some (.bool (x ≠ y))
  | .lt, [.num x, .num y] => some (.bool (x < y))
  | .le, [.num x, .num y] => some (.bool (x ≤ y))
  | .gt, [.num x, .num y] => some (.bool (x > y))
  | .ge, [.num x, .num y] => some (.bool (x ≥ y))
  | _, _ => none

section Meaning

variable (declarations : List SymbolDeclaration) (σ : Assignment) (divZero : ℝ → ℝ)

/-- The value of a declared symbol, of its sort. -/
def symbolValue (name : SymbolName) : Option Value :=
  (declaration? declarations name).map fun declaration =>
    match declaration.sort with
    | .boolean => .bool (σ.bool name)
    | .integer => .num (σ.int name)
    | .real => .num (σ.real name)

mutual
noncomputable def meaning : ASTNode → Option Value
  | .boolean value => some (.bool (value = true))
  | .integer value => some (.num value.value)
  | .real value => some (.num value.value)
  | .symbol name => symbolValue declarations σ name
  | .operation operator arguments => (meaningItems arguments).bind (combine divZero operator)
noncomputable def meaningItems : List ASTNode → Option (List Value)
  | [] => some []
  | node :: nodes => do
    let value ← meaning node
    let values ← meaningItems nodes
    pure (value :: values)
end

/-- The formula is true. -/
def Satisfies (ast : ASTNode) : Prop := ∃ p, meaning declarations σ divZero ast = some (.bool p) ∧ p

end Meaning

/-- The formula is true under some assignment and some reading of division by zero. -/
def Satisfiable (declarations : List SymbolDeclaration) (asts : List ASTNode) : Prop :=
  ∃ σ divZero, ∀ ast ∈ asts, Satisfies declarations σ divZero ast

mutual
/-- The conjuncts of a formula, with their paths. -/
def conjuncts : ASTNode → String → List (String × ASTNode)
  | .operation operator arguments, path =>
    if operator = .and then conjunctsItems arguments path 0
    else [(path, .operation operator arguments)]
  | .boolean value, path => [(path, .boolean value)]
  | .integer value, path => [(path, .integer value)]
  | .real value, path => [(path, .real value)]
  | .symbol name, path => [(path, .symbol name)]
def conjunctsItems : List ASTNode → String → ℕ → List (String × ASTNode)
  | [], _, _ => []
  | node :: nodes, path, index =>
    conjuncts node (argumentPath path index) ++ conjunctsItems nodes path (index + 1)
end

/-! ### Paths -/

/-- `path` or a path below it. -/
def Below (path below : String) : Prop := path.toList <+: below.toList

theorem toList_argumentPath (path : String) (index : ℕ) :
    (argumentPath path index).toList
      = path.toList ++ ".arguments[".toList ++ (toString index).toList ++ [']'] := by
  simp only [argumentPath, String.toList_append]
  rfl

theorem below_argumentPath (path : String) (index : ℕ) : Below path (argumentPath path index) := by
  rw [Below, toList_argumentPath, List.append_assoc, List.append_assoc]
  exact List.prefix_append _ _

theorem isDigit_toString {index : ℕ} {c : Char} (h : c ∈ (toString index).toList) :
    c.isDigit = true := by
  rw [Nat.toString_eq_repr, Nat.toList_repr] at h
  exact Nat.isDigit_of_mem_toDigits (by decide) (by decide) h

/-- Paths below different arguments differ. -/
theorem eq_of_below {path : String} {i j : ℕ} {below : String}
    (hi : Below (argumentPath path i) below) (hj : Below (argumentPath path j) below) : i = j := by
  obtain ⟨xs, hxs⟩ := hi
  obtain ⟨ys, hys⟩ := hj
  have hdigits (n : ℕ) (zs : List Char) :
      ((toString n).toList ++ ']' :: zs).takeWhile Char.isDigit = (toString n).toList := by
    rw [List.takeWhile_append_of_pos fun c hc => isDigit_toString hc,
      List.takeWhile_cons_of_neg (by decide), List.append_nil]
  rw [← hys, toList_argumentPath, toList_argumentPath] at hxs
  simp only [List.append_assoc, List.append_cancel_left_eq, List.cons_append, List.nil_append] at hxs
  have htext := congrArg (List.takeWhile Char.isDigit) hxs
  rw [hdigits, hdigits] at htext
  rw [Nat.toString_eq_repr, Nat.toString_eq_repr, Nat.toList_repr, Nat.toList_repr] at htext
  have hvalue := congrArg (Nat.ofDigitChars 10 · 0) htext
  simpa only [Nat.ofDigitChars_ten_toDigits] using hvalue

mutual
/-- The paths of the conjuncts lie below the path of the formula. -/
theorem below_of_mem_conjuncts : ∀ (node : ASTNode) (path : String),
    ∀ c ∈ conjuncts node path, Below path c.1
  | .operation operator arguments, path => by
    rw [conjuncts]
    intro c hc
    split at hc
    · obtain ⟨index, -, hbelow⟩ := below_of_mem_conjunctsItems arguments path 0 c hc
      exact (below_argumentPath path index).trans hbelow
    · rw [List.mem_singleton.mp hc]
      exact List.prefix_refl _
  | .boolean _, path | .integer _, path | .real _, path | .symbol _, path => by
    intro c hc
    rw [conjuncts, List.mem_singleton] at hc
    rw [hc]
    exact List.prefix_refl _
theorem below_of_mem_conjunctsItems : ∀ (nodes : List ASTNode) (path : String) (index : ℕ),
    ∀ c ∈ conjunctsItems nodes path index, ∃ i ≥ index, Below (argumentPath path i) c.1
  | [], _, _ => by simp [conjunctsItems]
  | node :: nodes, path, index => by
    intro c hc
    rw [conjunctsItems, List.mem_append] at hc
    rcases hc with hc | hc
    · exact ⟨index, le_refl index, below_of_mem_conjuncts node _ c hc⟩
    · obtain ⟨i, hi, hbelow⟩ := below_of_mem_conjunctsItems nodes path (index + 1) c hc
      exact ⟨i, Nat.le_of_succ_le hi, hbelow⟩
end

mutual
/-- The paths of the conjuncts are distinct. -/
theorem nodup_paths : ∀ (node : ASTNode) (path : String),
    ((conjuncts node path).map Prod.fst).Nodup
  | .operation operator arguments, path => by
    rw [conjuncts]
    split
    · exact nodup_pathsItems arguments path 0
    · exact List.nodup_singleton _
  | .boolean _, path | .integer _, path | .real _, path | .symbol _, path =>
    List.nodup_singleton _
theorem nodup_pathsItems : ∀ (nodes : List ASTNode) (path : String) (index : ℕ),
    ((conjunctsItems nodes path index).map Prod.fst).Nodup
  | [], _, _ => List.nodup_nil
  | node :: nodes, path, index => by
    rw [conjunctsItems, List.map_append, List.nodup_append']
    refine ⟨nodup_paths node _, nodup_pathsItems nodes path (index + 1), ?_⟩
    intro p hp hp'
    obtain ⟨c, hc, rfl⟩ := List.mem_map.mp hp
    obtain ⟨c', hc', hsame⟩ := List.mem_map.mp hp'
    have hbelow := below_of_mem_conjuncts node _ c hc
    obtain ⟨i, hi, hbelow'⟩ := below_of_mem_conjunctsItems nodes path (index + 1) c' hc'
    rw [hsame] at hbelow'
    have := eq_of_below hbelow hbelow'
    omega
end

end Agora.Formalization
