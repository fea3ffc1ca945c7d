import Agora.Lib.Python
import Agora.Lib.Rounding
import Mathlib.Algebra.Order.Field.Rat

namespace Agora.Consensus

/-!
# Decimal arithmetic and strategy parameters

The strategies compute over `decimal.Decimal`.  They are written here over any type `D` with
the operations of `DecimalArith`, so that a result that needs no law of arithmetic holds
for every precision and rounding of the decimal context.  The instance on `ℚ` is exact
arithmetic.

A strategy's parameters are a `dict[str, Any]` of JSON-like values (`ParamValue`), read with
a default and converted by `Decimal(str(...))`, `bool(...)` or `int(...)`.
-/

/-! ### Arithmetic -/

/-- The operations a strategy uses of `decimal.Decimal`.  Only division can trap on finite
    operands, see `decDiv`. -/
class DecimalArith (D : Type) extends Zero D, One D, Add D, Sub D, Mul D, Div D, LT D, LE D where
  decEq : DecidableEq D
  decLt : DecidableLT D
  decLe : DecidableLE D
  /-- A decimal written as a literal in the program. -/
  ofRat : ℚ → D
  /-- `Decimal(text)`, `none` where it raises `InvalidOperation`. -/
  ofString? : String → Option D

instance decidableEq {D : Type} [c : DecimalArith D] : DecidableEq D := c.decEq
instance decidableLT {D : Type} [c : DecimalArith D] : DecidableLT D := c.decLt
instance decidableLE {D : Type} [c : DecimalArith D] : DecidableLE D := c.decLe

export DecimalArith (ofRat)

/-! ### Decimal literals -/

/-- Read a run of ASCII digits: the number it denotes after `acc`, how many, and the rest. -/
def readDigits (acc count : ℕ) : List Char → ℕ × ℕ × List Char
  | [] => (acc, count, [])
  | c :: cs =>
    if '0' ≤ c ∧ c ≤ '9' then readDigits (10 * acc + (c.toNat - '0'.toNat)) (count + 1) cs
    else (acc, count, c :: cs)

/-- Read an optional sign: whether it is a minus, and the rest. -/
def readSign : List Char → Bool × List Char
  | '-' :: cs => (true, cs)
  | '+' :: cs => (false, cs)
  | cs => (false, cs)

/-- The exponent part of a decimal literal, which must end the text. -/
def readExponent : List Char → Option ℤ
  | [] => some 0
  | e :: cs =>
    if e = 'e' ∨ e = 'E' then
      let (neg, cs) := readSign cs
      let (n, count, rest) := readDigits 0 0 cs
      if count ≠ 0 ∧ rest = [] then some (if neg then -(n : ℤ) else n) else none
    else none

/-- `Decimal(text)` for a finite number: surrounding whitespace and underscores are ignored,
    then a sign, digits with an optional point, and an optional exponent. -/
def parseDecimal (text : String) : Option ℚ :=
  let trimmed := ((text.toList.dropWhile isSpace).reverse.dropWhile isSpace).reverse
  let (neg, cs) := readSign (trimmed.filter (· ≠ '_'))
  let (whole, wholeCount, rest) := readDigits 0 0 cs
  let (mantissa, count, rest) := match rest with
    | '.' :: rest => readDigits whole 0 rest
    | rest => (whole, 0, rest)
  if wholeCount + count = 0 then none
  else (readExponent rest).map fun (e : ℤ) =>
    (if neg then -(mantissa : ℚ) else mantissa) * (10 : ℚ) ^ (e - (count : ℤ))

/-- Exact arithmetic. -/
scoped instance : DecimalArith ℚ where
  decEq := inferInstance
  decLt := inferInstance
  decLe := inferInstance
  ofRat := id
  ofString? := parseDecimal

@[simp] theorem ofRat_rat (q : ℚ) : (ofRat q : ℚ) = q := rfl

section Operations

variable {D : Type} [DecimalArith D]

/-- `a / b`, which traps on a zero divisor. -/
def decDiv (a b : D) : Py D :=
  if b = 0 then .error (.arithmeticError "division by zero") else .ok (a / b)

/-- The built-in `min(a, b)`: the first argument unless the second is smaller. -/
def pyMin (a b : D) : D := if b < a then b else a

/-- The built-in `max(a, b)`: the first argument unless the second is larger. -/
def pyMax (a b : D) : D := if a < b then b else a

/-- `abs(a)`. -/
def pyAbs (a : D) : D := if a < 0 then 0 - a else a

/-- `sum(values, start=Decimal("0"))`. -/
def pySum (values : List D) : D := values.foldl (· + ·) 0

/-- `Decimal(raw)`. -/
def decimalOf (raw : String) : Py D :=
  match DecimalArith.ofString? raw with
  | some d => .ok d
  | none => .error (.arithmeticError "invalid decimal literal")

end Operations

/-! ### Parameter values -/

/-- A value of a strategy's parameter map.  A float is carried by its `repr`, which is all
    that `str` shows of it. -/
inductive ParamValue where
  | none
  | bool (b : Bool)
  | int (n : ℤ)
  | float (repr : String)
  | str (s : String)
  | map (entries : List (String × ParamValue))

/-- A `dict[str, Any]`. -/
abbrev ParamMap := List (String × ParamValue)

namespace ParamValue

/-- `str(value)`; no decimal is read from the text of a map. -/
def toStr : ParamValue → String
  | none => "None"
  | bool true => "True"
  | bool false => "False"
  | int n => toString n
  | float repr => repr
  | str s => s
  | map _ => "dict"

/-- `bool(value)`. -/
def truthy : ParamValue → Bool
  | none => false
  | bool b => b
  | int n => n ≠ 0
  | float repr => repr ≠ "0.0" ∧ repr ≠ "-0.0"
  | str s => s ≠ ""
  | map entries => !entries.isEmpty

/-- `int(value)`: a float is truncated towards zero. -/
def toInt : ParamValue → Py ℤ
  | bool b => .ok (if b then 1 else 0)
  | int n => .ok n
  | float repr =>
    match parseDecimal repr with
    | some q => .ok (if 0 ≤ q then q.floor else q.ceil)
    | Option.none => .error (.overflowError "cannot convert float to integer")
  | str s =>
    match parseDecimal s with
    | some q =>
      if q.den = 1 ∧ s.toList.all (fun c => c ≠ '.' ∧ c ≠ 'e' ∧ c ≠ 'E') then .ok q.num
      else .error (.valueError "invalid literal for int() with base 10")
    | Option.none => .error (.valueError "invalid literal for int() with base 10")
  | none | map _ => .error (.typeError "int() argument must be a string or a real number")

end ParamValue

section Binding

variable {D : Type} [DecimalArith D]

/-- `Decimal(str(params.get(key, default)))`. -/
def decimalParam (params : ParamMap) (key default : String) : Py D :=
  decimalOf (((params.lookup key).map ParamValue.toStr).getD default)

/-- `bool(params.get(key, False))`. -/
def boolParam (params : ParamMap) (key : String) : Bool :=
  ((params.lookup key).map ParamValue.truthy).getD false

/-- `{k: Decimal(str(v)) for k, v in raw.items()}`. -/
def decimalTable (entries : ParamMap) : Py (List (String × D)) :=
  entries.mapM fun (k, v) => do
    let d ← decimalOf v.toStr
    pure (k, d)

/-- A table parameter: `None` unless the value is truthy, and then a map of decimals. -/
def tableParam (params : ParamMap) (key : String) : Py (Option (List (String × D))) :=
  match params.lookup key with
  | Option.none => .ok Option.none
  | some raw =>
    if raw.truthy then
      match raw with
      | .map entries => (decimalTable entries).map some
      | _ => .error (.attributeError "object has no attribute 'items'")
    else .ok Option.none

end Binding

/-! ### Arithmetic of the default context

`decimal` computes with `ContextDecimal`: a literal keeps all of its digits, and every operation
rounds its result to the precision of the context.  What the comparisons of the strategies need of an
arithmetic is `OrderedDecimal`, which exact arithmetic and the default context both have. -/

/-- A linear order whose addition is monotone. -/
class OrderedDecimal (D : Type) [DecimalArith D] : Prop where
  le_total : ∀ a b : D, a ≤ b ∨ b ≤ a
  le_trans : ∀ {a b c : D}, a ≤ b → b ≤ c → a ≤ c
  lt_iff_not_le : ∀ {a b : D}, a < b ↔ ¬ b ≤ a
  add_le_add_right : ∀ {a b : D} (c : D), a ≤ b → a + c ≤ b + c

instance : OrderedDecimal ℚ where
  le_total := le_total
  le_trans := le_trans
  lt_iff_not_le := lt_iff_not_ge
  add_le_add_right c h := by simpa using h

/-! ### The default context -/

/-- A finite decimal, by its value. -/
structure ContextDecimal where
  value : ℚ
deriving DecidableEq

namespace ContextDecimal

/-- `getcontext().prec`. -/
def precision : ℕ := 28

/-- The result of an operation, rounded with `ROUND_HALF_EVEN`. -/
def round (value : ℚ) : ContextDecimal := ⟨roundDigits 10 precision value⟩

instance : DecimalArith ContextDecimal where
  zero := ⟨0⟩
  one := ⟨1⟩
  add a b := round (a.value + b.value)
  sub a b := round (a.value - b.value)
  mul a b := round (a.value * b.value)
  div a b := round (a.value / b.value)
  lt a b := a.value < b.value
  le a b := a.value ≤ b.value
  decEq := inferInstance
  decLt a b := inferInstanceAs (Decidable (a.value < b.value))
  decLe a b := inferInstanceAs (Decidable (a.value ≤ b.value))
  ofRat := mk
  ofString? text := (parseDecimal text).map mk

theorem le_iff {a b : ContextDecimal} : a ≤ b ↔ a.value ≤ b.value := Iff.rfl

theorem round_mono {x y : ℚ} (h : x ≤ y) : round x ≤ round y :=
  roundDigits_mono (by decide) (by decide) h

instance : OrderedDecimal ContextDecimal where
  le_total a b := le_total a.value b.value
  le_trans hab hbc := le_trans (le_iff.mp hab) (le_iff.mp hbc)
  lt_iff_not_le := lt_iff_not_ge (α := ℚ)
  add_le_add_right _ h := round_mono (add_le_add (le_iff.mp h) le_rfl)

/-- Adding to a decimal that the precision keeps does not lead below it. -/
theorem le_add {m k : ℤ} (h : m.natAbs < 10 ^ precision) {e : ContextDecimal} (he : 0 ≤ e) :
    (⟨m * (10 : ℚ) ^ k⟩ : ContextDecimal) ≤ ⟨m * (10 : ℚ) ^ k⟩ + e := by
  have hkept : roundDigits 10 precision (m * (10 : ℚ) ^ k) = m * (10 : ℚ) ^ k :=
    roundDigits_eq_self (by decide) h
  apply le_iff.mpr
  show m * (10 : ℚ) ^ k ≤ roundDigits 10 precision (m * (10 : ℚ) ^ k + e.value)
  calc m * (10 : ℚ) ^ k = roundDigits 10 precision (m * (10 : ℚ) ^ k) := hkept.symm
    _ ≤ roundDigits 10 precision (m * (10 : ℚ) ^ k + e.value) :=
      roundDigits_mono (by decide) (by decide) (le_add_of_nonneg_right (le_iff.mp he))

end ContextDecimal

end Agora.Consensus
