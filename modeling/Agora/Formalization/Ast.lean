import Agora.Lib.JsonLeaves
import Agora.Marl.Values
import Mathlib.Data.Rat.Defs

namespace Agora.Formalization

open Marl (Text Hash canonicalHash isLower isUpper matchesShape)

/-!
# The formalization language

Closed formulas over declared boolean, integer and real symbols.  Names, literals and units are
texts of a fixed grammar.  A revision pins a formula with its hash, its symbols and its rendering.
-/

/-! ### Texts -/

/-- `^[A-Za-z][A-Za-z0-9_]{0,63}$`. -/
def isSymbolName : String → Bool :=
  matchesShape (fun c => isLower c || isUpper c)
    (fun c => isLower c || isUpper c || c.isDigit || c = '_') 63

/-- `[1-9][0-9]*`. -/
def isPositive : List Char → Bool
  | [] => false
  | c :: cs => c.isDigit && c ≠ '0' && cs.all Char.isDigit

/-- `-?[1-9][0-9]*`. -/
def isNonzero : List Char → Bool
  | '-' :: cs => isPositive cs
  | cs => isPositive cs

/-- `0|-?[1-9][0-9]*`. -/
def isWhole (cs : List Char) : Bool := cs = ['0'] || isNonzero cs

/-- `[0-9]*[1-9]`. -/
def isFraction (cs : List Char) : Bool :=
  cs.all Char.isDigit && cs.getLast?.any (· ≠ '0')

/-- `^(?:0|-?[1-9][0-9]*)$`. -/
def isIntegerText (s : String) : Bool := isWhole s.toList

/-- `^(?:0|-?[1-9][0-9]*)(?:\.[0-9]*[1-9])?$`. -/
def isRealText (s : String) : Bool :=
  match s.toList.span (· ≠ '.') with
  | (whole, []) => isWhole whole
  | (whole, _ :: fraction) => isWhole whole && isFraction fraction

/-- `text.split(separator)`. -/
def splitAt (separator : Char) : List Char → List (List Char)
  | [] => [[]]
  | c :: cs =>
    match splitAt separator cs with
    | [] => [[c]]
    | part :: parts => if c = separator then [] :: part :: parts else (c :: part) :: parts

/-- `[A-Za-z][A-Za-z0-9_]*`. -/
def isUnitName : List Char → Bool
  | [] => false
  | c :: cs => (isLower c || isUpper c)
    && cs.all fun c => isLower c || isUpper c || c.isDigit || c = '_'

/-- `[A-Za-z][A-Za-z0-9_]*(?:\^-?[1-9][0-9]*)?`. -/
def isUnitFactor (cs : List Char) : Bool :=
  match cs.span (· ≠ '^') with
  | (name, []) => isUnitName name
  | (name, _ :: exponent) => isUnitName name && isNonzero exponent

/-- A unit: `1`, or factors joined by `*`. -/
def isUnit (s : String) : Bool := s = "1" || (splitAt '*' s.toList).all isUnitFactor

abbrev SymbolName := Text isSymbolName
abbrev IntegerText := Text isIntegerText
abbrev RealText := Text isRealText
abbrev UnitText := Text isUnit

/-! ### Numbers -/

/-- The number that decimal digits write. -/
def digitsValue (cs : List Char) : ℕ := Nat.ofDigitChars 10 cs 0

/-- The number that an integer text writes. -/
def wholeValue : List Char → ℤ
  | '-' :: cs => - digitsValue cs
  | cs => digitsValue cs

def IntegerText.value (t : IntegerText) : ℤ := wholeValue t.text.toList

/-- The number that a decimal text writes: the sign belongs to the fraction too. -/
def RealText.value (t : RealText) : ℚ :=
  match t.text.toList.span (· ≠ '.') with
  | (whole, []) => wholeValue whole
  | ('-' :: whole, _ :: fraction) =>
    - (digitsValue (whole ++ fraction) : ℚ) / 10 ^ fraction.length
  | (whole, _ :: fraction) => (digitsValue (whole ++ fraction) : ℚ) / 10 ^ fraction.length

/-! ### Formulas -/

/-- `Sort`. -/
inductive SymbolSort where
  | boolean
  | integer
  | real
deriving DecidableEq, Repr

inductive Operator where
  | not
  | and
  | or
  | neg
  | add
  | sub
  | mul
  | div
  | eq
  | ne
  | lt
  | le
  | gt
  | ge
deriving DecidableEq, Repr

/-- The value of the enumeration member. -/
def Operator.value : Operator → String
  | .not => "NOT"
  | .and => "AND"
  | .or => "OR"
  | .neg => "NEG"
  | .add => "ADD"
  | .sub => "SUB"
  | .mul => "MUL"
  | .div => "DIV"
  | .eq => "EQ"
  | .ne => "NE"
  | .lt => "LT"
  | .le => "LE"
  | .gt => "GT"
  | .ge => "GE"

/-- `_TOKEN[operator]`. -/
def Operator.token : Operator → String
  | .not => "not"
  | .and => "and"
  | .or => "or"
  | .neg => "-"
  | .add => "+"
  | .sub => "-"
  | .mul => "*"
  | .div => "/"
  | .eq => "="
  | .ne => "!="
  | .lt => "<"
  | .le => "<="
  | .gt => ">"
  | .ge => ">="

inductive ASTNode where
  | boolean (value : Bool)
  | integer (value : IntegerText)
  | real (value : RealText)
  | symbol (name : SymbolName)
  | operation (operator : Operator) (arguments : List ASTNode)

/-- Unary operators take one argument and the others two. -/
def Operator.arity : Operator → ℕ
  | .not | .neg => 1
  | _ => 2

mutual
/-- `dump_python(ast, mode="json")`. -/
def ASTNode.dump : ASTNode → Json
  | .boolean value => .obj [(.ofString "kind", .text "boolean"), (.ofString "value", .bool value)]
  | .integer value =>
    .obj [(.ofString "kind", .text "integer"), (.ofString "value", .text value.text)]
  | .real value => .obj [(.ofString "kind", .text "real"), (.ofString "value", .text value.text)]
  | .symbol name => .obj [(.ofString "kind", .text "symbol"), (.ofString "name", .text name.text)]
  | .operation operator arguments =>
    .obj [(.ofString "arguments", .arr (ASTNode.dumpItems arguments)),
      (.ofString "kind", .text "operation"), (.ofString "operator", .text operator.value)]
def ASTNode.dumpItems : List ASTNode → List Json
  | [] => []
  | node :: nodes => node.dump :: ASTNode.dumpItems nodes
end

def astHash (ast : ASTNode) : Py Hash := canonicalHash ast.dump

mutual
/-- A formula can be written. -/
theorem ASTNode.encodable_dump : ∀ node : ASTNode, node.dump.encodable = true
  | .boolean _ => rfl
  | .integer value => by
    simp only [ASTNode.dump, Json.encodable, Json.encodableEntries, Json.text,
      Json.isScalar_ofString, Bool.and_self]
  | .real value => by
    simp only [ASTNode.dump, Json.encodable, Json.encodableEntries, Json.text,
      Json.isScalar_ofString, Bool.and_self]
  | .symbol name => by
    simp only [ASTNode.dump, Json.encodable, Json.encodableEntries, Json.text,
      Json.isScalar_ofString, Bool.and_self]
  | .operation operator arguments => by
    simp only [ASTNode.dump, Json.encodable, Json.encodableEntries, Json.text,
      Json.isScalar_ofString, ASTNode.encodable_dumpItems arguments, Bool.and_self]
theorem ASTNode.encodable_dumpItems : ∀ nodes : List ASTNode,
    Json.encodableItems (ASTNode.dumpItems nodes) = true
  | [] => rfl
  | node :: nodes => by
    rw [ASTNode.dumpItems, Json.encodableItems, ASTNode.encodable_dump node,
      ASTNode.encodable_dumpItems nodes, Bool.and_self]
end

theorem astHash_eq (ast : ASTNode) :
    astHash ast = .ok (Marl.sha256Hash (utf8 ast.dump.canonical)) := by
  rw [astHash, canonicalHash, Json.canonicalJson_of_encodable ast.encodable_dump]
  rfl

/-- `separator.join(parts)`. -/
def joinWith (separator : String) : List String → String
  | [] => ""
  | [part] => part
  | part :: parts => part ++ separator ++ joinWith separator parts

mutual
def renderAst : ASTNode → String
  | .boolean value => if value then "true" else "false"
  | .integer value => value.text
  | .real value => value.text
  | .symbol name => name.text
  | .operation operator arguments =>
    match operator, renderItems arguments with
    | .not, [] => "(not)"
    | .not, rendered :: _ => "(not " ++ rendered ++ ")"
    | .neg, [] => "(-)"
    | .neg, rendered :: _ => "(-" ++ rendered ++ ")"
    | operator, rendered => "(" ++ joinWith (" " ++ operator.token ++ " ") rendered ++ ")"
def renderItems : List ASTNode → List String
  | [] => []
  | node :: nodes => renderAst node :: renderItems nodes
end

/-! ### Revisions -/

/-- A declared symbol: numeric ones have a unit. -/
structure SymbolDeclaration where
  name : SymbolName
  sort : SymbolSort
  unit : Option UnitText
  valid_unit : unit.isSome = (sort ≠ .boolean : Bool)

/-- A revision, with the hash of its formula. -/
structure FormalizationRevision where
  id : UUID
  ast : ASTNode
  hash : Hash
  symbols : List SymbolDeclaration
  canonicalRendering : String
  coherent_revision : astHash ast = .ok hash

/-- The revision of a formula, with its own hash and rendering. -/
def FormalizationRevision.ofAst (id : UUID) (ast : ASTNode) (symbols : List SymbolDeclaration) :
    FormalizationRevision where
  id := id
  ast := ast
  hash := Marl.sha256Hash (utf8 ast.dump.canonical)
  symbols := symbols
  canonicalRendering := renderAst ast
  coherent_revision := astHash_eq ast

end Agora.Formalization
