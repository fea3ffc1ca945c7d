import Mathlib.Data.Real.Basic
import Mathlib.Data.Set.Card

namespace Agora.Smt

/-!
# Quantifier-free arithmetic and the solver that decides it

Formulas over boolean, integer and real constants with the meaning of SMT-LIB: integers are the
integral reals, and division by zero is some fixed function that the solver may choose.  A
`Solver` is what answers queries; it is `Correct` when its models satisfy the query and its cores
are unsatisfiable.

A query is often asked with tracking labels: each assertion is implied by a label of its own, and
the labels are assumed.  `sat_tracked_iff` says when the labels do not change the answer.
-/

/-! ### Formulas -/

inductive NumSort where
  | int
  | real
deriving DecidableEq, Repr

/-- Numeric terms by sort. -/
inductive Arith : NumSort → Type
  | const (name : String) (s : NumSort) : Arith s
  | intVal (n : ℤ) : Arith .int
  | realVal (q : ℚ) : Arith .real
  | toReal (a : Arith .int) : Arith .real
  | neg {s : NumSort} (a : Arith s) : Arith s
  | add {s : NumSort} (a b : Arith s) : Arith s
  | sub {s : NumSort} (a b : Arith s) : Arith s
  | mul {s : NumSort} (a b : Arith s) : Arith s
  | div (a b : Arith .real) : Arith .real

/-- Boolean terms. -/
inductive Formula where
  | const (name : String)
  | val (b : Bool)
  | not (f : Formula)
  | and (f g : Formula)
  | or (f g : Formula)
  | implies (f g : Formula)
  | iff (f g : Formula)
  | eq {s : NumSort} (a b : Arith s)
  | lt {s : NumSort} (a b : Arith s)
  | le {s : NumSort} (a b : Arith s)
  | gt {s : NumSort} (a b : Arith s)
  | ge {s : NumSort} (a b : Arith s)

/-- `f.arg(i)`: a boolean argument of a formula. -/
def Formula.arg : Formula → ℕ → Option Formula
  | .not f, 0 => some f
  | .and f _, 0 | .or f _, 0 | .implies f _, 0 | .iff f _, 0 => some f
  | .and _ g, 1 | .or _ g, 1 | .implies _ g, 1 | .iff _ g, 1 => some g
  | _, _ => none

/-! ### Meaning -/

/-- A value for every constant, and the division by zero.  Constants of different sorts are
    different constants. -/
structure Interp where
  bool : String → Prop
  int : String → ℤ
  real : String → ℝ
  divZero : ℝ → ℝ

/-- Division with a reading of division by zero. -/
noncomputable def divide (divZero : ℝ → ℝ) (x y : ℝ) : ℝ :=
  haveI := Classical.propDecidable (y = 0)
  if y = 0 then divZero x else x / y

noncomputable def Arith.eval (I : Interp) : {s : NumSort} → Arith s → ℝ
  | _, .const name .int => I.int name
  | _, .const name .real => I.real name
  | _, .intVal n => n
  | _, .realVal q => q
  | _, .toReal a => a.eval I
  | _, .neg a => - a.eval I
  | _, .add a b => a.eval I + b.eval I
  | _, .sub a b => a.eval I - b.eval I
  | _, .mul a b => a.eval I * b.eval I
  | _, .div a b => divide I.divZero (a.eval I) (b.eval I)

def Formula.Holds (I : Interp) : Formula → Prop
  | .const name => I.bool name
  | .val b => b = true
  | .not f => ¬ f.Holds I
  | .and f g => f.Holds I ∧ g.Holds I
  | .or f g => f.Holds I ∨ g.Holds I
  | .implies f g => f.Holds I → g.Holds I
  | .iff f g => f.Holds I ↔ g.Holds I
  | .eq a b => a.eval I = b.eval I
  | .lt a b => a.eval I < b.eval I
  | .le a b => a.eval I ≤ b.eval I
  | .gt a b => a.eval I > b.eval I
  | .ge a b => a.eval I ≥ b.eval I

def Sat (fs : List Formula) : Prop := ∃ I : Interp, ∀ f ∈ fs, f.Holds I

/-! ### Values and solvers -/

/-- An irrational root of a polynomial: the coefficients from the constant term on, which of the
    real roots it is, counted from 1 in increasing order, and how the polynomial is printed. -/
structure AlgebraicNum where
  poly : List ℤ
  index : ℕ
  polyText : List Char

/-- `x.sexpr()`. -/
def AlgebraicNum.sexpr (x : AlgebraicNum) : List Char :=
  "(root-obj ".toList ++ x.polyText ++ ' ' :: Nat.toDigits 10 x.index ++ [')']

/-- The value of a constant in a model. -/
inductive ModelValue where
  | bool (b : Bool)
  | int (n : ℤ)
  | rational (q : ℚ)
  | algebraic (x : AlgebraicNum)
  | other

/-- `model.eval(constant, model_completion=True)`. -/
structure Model where
  bool : String → ModelValue
  int : String → ModelValue
  real : String → ModelValue

inductive CheckResult where
  | sat (model : Model)
  | unsat (core : List Formula)
  | unknown (reason : String)
  | unrecognized
  | raised

/-- Answers queries: the assertions, under assumptions, within a time limit. -/
structure Solver where
  check : ℕ → List Formula → List Formula → CheckResult

/-- The value of the polynomial with these coefficients. -/
noncomputable def evalPoly (poly : List ℤ) (x : ℝ) : ℝ :=
  poly.foldr (fun c y => c + x * y) 0

/-- `x` is the `i`-th real root of the polynomial. -/
def IsRoot (poly : List ℤ) (i : ℕ) (x : ℝ) : Prop :=
  evalPoly poly x = 0 ∧ {y : ℝ | evalPoly poly y = 0 ∧ y < x}.Finite
    ∧ {y : ℝ | evalPoly poly y = 0 ∧ y < x}.ncard + 1 = i

/-- Of two roots the smaller one comes first. -/
theorem IsRoot.lt_of_lt {poly : List ℤ} {i j : ℕ} {x y : ℝ} (hx : IsRoot poly i x)
    (hy : IsRoot poly j y) (hlt : x < y) : i < j := by
  obtain ⟨hroot, -, rfl⟩ := hx
  obtain ⟨-, hfinite, rfl⟩ := hy
  have hsub : {z : ℝ | evalPoly poly z = 0 ∧ z < x} ⊂ {z : ℝ | evalPoly poly z = 0 ∧ z < y} := by
    refine Set.ssubset_iff_subset_ne.mpr ⟨fun z hz => ⟨hz.1, hz.2.trans hlt⟩, fun heq => ?_⟩
    have hx : x ∈ {z : ℝ | evalPoly poly z = 0 ∧ z < x} := by
      rw [heq]
      exact ⟨hroot, hlt⟩
    exact lt_irrefl x hx.2
  exact Nat.succ_lt_succ (Set.ncard_lt_ncard hsub hfinite)

/-- A polynomial and an index determine the root. -/
theorem IsRoot.unique {poly : List ℤ} {i : ℕ} {x y : ℝ} (hx : IsRoot poly i x)
    (hy : IsRoot poly i y) : x = y := by
  rcases lt_trichotomy x y with hlt | heq | hlt
  · exact absurd (hx.lt_of_lt hy hlt) (lt_irrefl i)
  · exact heq
  · exact absurd (hy.lt_of_lt hx hlt) (lt_irrefl i)

def ModelValue.IsBool (p : Prop) : ModelValue → Prop
  | .bool b => p ↔ b = true
  | _ => False

def ModelValue.IsInt (n : ℤ) : ModelValue → Prop
  | .int m => n = m
  | .other => True
  | _ => False

def ModelValue.IsReal (x : ℝ) : ModelValue → Prop
  | .rational q => x = q
  | .algebraic a => IsRoot a.poly a.index x
  | .other => True
  | _ => False

/-- The model gives every constant its value. -/
structure Model.Describes (m : Model) (I : Interp) : Prop where
  bool : ∀ name, (m.bool name).IsBool (I.bool name)
  int : ∀ name, (m.int name).IsInt (I.int name)
  real : ∀ name, (m.real name).IsReal (I.real name)

/-- A solver whose models satisfy the query, and whose cores are assumptions that contradict the
    assertions. -/
structure Solver.Correct (z : Solver) : Prop where
  sat : ∀ {timeout assertions assumptions model},
    z.check timeout assertions assumptions = .sat model →
      ∃ I : Interp, (∀ f ∈ assertions ++ assumptions, f.Holds I) ∧ model.Describes I
  unsat : ∀ {timeout assertions assumptions core},
    z.check timeout assertions assumptions = .unsat core →
      core ⊆ assumptions ∧ ¬ Sat (assertions ++ core)

/-! ### Tracking labels -/

/-- The boolean constants of a formula. -/
def Formula.bools : Formula → List String
  | .const name => [name]
  | .not f => f.bools
  | .and f g | .or f g | .implies f g | .iff f g => f.bools ++ g.bools
  | _ => []

/-- The interpretation with other boolean values. -/
def Interp.withBools (I : Interp) (b : String → Prop) : Interp := { I with bool := b }

theorem Arith.eval_withBools (I : Interp) (b : String → Prop) {s : NumSort} (a : Arith s) :
    a.eval (I.withBools b) = a.eval I := by
  induction a with
  | const name s => cases s <;> rfl
  | intVal n => rfl
  | realVal q => rfl
  | toReal a ih => exact ih
  | neg a ih => simp only [Arith.eval, ih]
  | add a b iha ihb => simp only [Arith.eval, iha, ihb]
  | sub a b iha ihb => simp only [Arith.eval, iha, ihb]
  | mul a b iha ihb => simp only [Arith.eval, iha, ihb]
  | div a b iha ihb => simp only [Arith.eval, iha, ihb]; rfl

/-- A formula depends on the constants it has. -/
theorem Formula.holds_withBools {I : Interp} {b : String → Prop} {f : Formula}
    (h : ∀ name ∈ f.bools, (b name ↔ I.bool name)) : f.Holds (I.withBools b) ↔ f.Holds I := by
  induction f with
  | const name => exact h name (List.mem_singleton_self name)
  | val b => rfl
  | not f ih => exact not_congr (ih h)
  | and f g ihf ihg =>
    exact and_congr (ihf fun name hname => h name (List.mem_append_left _ hname))
      (ihg fun name hname => h name (List.mem_append_right _ hname))
  | or f g ihf ihg =>
    exact or_congr (ihf fun name hname => h name (List.mem_append_left _ hname))
      (ihg fun name hname => h name (List.mem_append_right _ hname))
  | implies f g ihf ihg =>
    exact imp_congr (ihf fun name hname => h name (List.mem_append_left _ hname))
      (ihg fun name hname => h name (List.mem_append_right _ hname))
  | iff f g ihf ihg =>
    exact iff_congr (ihf fun name hname => h name (List.mem_append_left _ hname))
      (ihg fun name hname => h name (List.mem_append_right _ hname))
  | eq a b => simp only [Formula.Holds, Arith.eval_withBools]
  | lt a b => simp only [Formula.Holds, Arith.eval_withBools]
  | le a b => simp only [Formula.Holds, Arith.eval_withBools]
  | gt a b => simp only [Formula.Holds, Arith.eval_withBools]
  | ge a b => simp only [Formula.Holds, Arith.eval_withBools]

/-- Each assertion implied by its label. -/
def tracked (l : List (String × Formula)) : List Formula :=
  l.map fun (label, f) => .implies (.const label) f

/-- **Tracking.**  Some assertions can be assumed by their labels exactly when they can hold
    together in an interpretation in which the labels that are constants of the assertions are true
    where they are assumed, and where they are true their assertion holds. -/
theorem sat_tracked_iff {l : List (String × Formula)} {own : String → Prop}
    (hown : ∀ e ∈ l, ∀ name ∈ e.2.bools, own name) {chosen : List String}
    (hchosen : chosen ⊆ l.map Prod.fst) :
    Sat (tracked l ++ chosen.map .const) ↔
      ∃ I : Interp, (∀ e ∈ l, e.1 ∈ chosen → e.2.Holds I)
        ∧ ∀ e ∈ l, own e.1 → (e.1 ∈ chosen → I.bool e.1) ∧ (I.bool e.1 → e.2.Holds I) := by
  constructor
  · rintro ⟨I, hI⟩
    have himplies (e : String × Formula) (he : e ∈ l) : I.bool e.1 → e.2.Holds I :=
      hI (.implies (.const e.1) e.2) (List.mem_append_left _ (List.mem_map_of_mem he))
    have hassumed (label : String) (hlabel : label ∈ chosen) : I.bool label :=
      hI (.const label) (List.mem_append_right _ (List.mem_map_of_mem hlabel))
    exact ⟨I, fun e he hlabel => himplies e he (hassumed e.1 hlabel),
      fun e he _ => ⟨hassumed e.1, himplies e he⟩⟩
  · rintro ⟨I, hholds, hclash⟩
    -- A label that is no constant of the assertions is free: it is true where it is assumed.
    let b (name : String) : Prop := (own name ∧ I.bool name) ∨ (¬ own name ∧ name ∈ chosen)
    have hb (name : String) (hname : own name) : b name ↔ I.bool name := by
      simp only [b, hname, true_and, not_true_eq_false, false_and, or_false]
    have hsame (e : String × Formula) (he : e ∈ l) : e.2.Holds (I.withBools b) ↔ e.2.Holds I :=
      Formula.holds_withBools fun name hname => hb name (hown e he name hname)
    refine ⟨I.withBools b, fun f hf => ?_⟩
    rcases List.mem_append.mp hf with hf | hf
    · obtain ⟨e, he, rfl⟩ := List.mem_map.mp hf
      intro hlabel
      refine (hsame e he).mpr ?_
      rcases hlabel with ⟨hmine, htrue⟩ | ⟨-, hassumed⟩
      · exact (hclash e he hmine).2 htrue
      · exact hholds e he hassumed
    · obtain ⟨label, hlabel, rfl⟩ := List.mem_map.mp hf
      obtain ⟨e, he, rfl⟩ := List.mem_map.mp (hchosen hlabel)
      by_cases hmine : own e.1
      · exact (hb e.1 hmine).mpr ((hclash e he hmine).1 hlabel)
      · exact .inr ⟨hmine, hlabel⟩

end Agora.Smt
