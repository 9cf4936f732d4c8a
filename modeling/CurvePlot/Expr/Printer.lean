import CurvePlot.Decimal.Layout
import CurvePlot.Expr

/-! The canonical text of an expression, with parentheses only where the reader needs them.

Every node has a precedence, and every operand a floor: the least precedence that it may have
without parentheses. A literal that is no finite number is written as a quotient, and one with a
minus sign as a negation, and they count as such. -/

namespace CurvePlot

/-- On which side an operator takes an operand of its own precedence without parentheses. -/
inductive Assoc where
  | left
  | right
  | none
deriving DecidableEq, Repr

namespace Expr

/-- How tightly a node holds its operands together. A minus sign in front stands between the
multiplications and the powers. -/
def precedence : Expr → Nat × Assoc
  | binary .add .. | binary .sub .. => (1, .left)
  | binary .mul .. | binary .div .. => (2, .left)
  | neg _ => (3, .right)
  | binary .pow .. => (4, .right)
  | number _ | var | const _ | call .. => (5, .none)

/-- The precedence of a negation, and the floor of an exponent. -/
def negFloor : Nat := 3

/-- The precedence of a node as it is written. -/
def writtenPrecedence (a : Expr) : Nat :=
  match a with
  | number v =>
    if !v.isFinite then 2 else if Binary64.isNegative v then negFloor else a.precedence.1
  | _ => a.precedence.1

/-- The floors of the two operands of an operator. -/
def operandFloors : Nat × Assoc → Nat × Nat
  | (p, .left) => (p, p + 1)
  | (p, .right) => (p + 1, negFloor)
  | (p, .none) => (p, p)

/-- Puts parentheses around the text of an operand below its floor. -/
def enclose (floor : Nat) (a : Expr) (text : List Char) : List Char :=
  if a.writtenPrecedence < floor then '(' :: text ++ [')'] else text

/-- The digits of a literal that read back, with a power of ten from `1e16` on and below `1e-5`. -/
def numberText (v : Float) : List Char :=
  if v.isNaN then "0 / 0".toList
  else if v.isInf then (if v < 0 then "-1 / 0" else "1 / 0").toList
  else if v != 0 && (v.abs < 1e-5 || 1e16 ≤ v.abs) then Decimal.exponential v
  else Decimal.plain v

/-- An operator between its operands. -/
def symbol : BinOp → String
  | .add => " + "
  | .sub => " - "
  | .mul => " * "
  | .div => " / "
  | .pow => "^"

/-- The characters of the canonical text. -/
def chars : Expr → List Char
  | number v => numberText v
  | var => variableName.toList
  | const c => c.name.toList
  | neg a => '-' :: enclose negFloor a a.chars
  | binary op a b =>
    let (left, right) := operandFloors (binary op a b).precedence
    enclose left a a.chars ++ (symbol op).toList ++ enclose right b b.chars
  | call f a => f.name.toList ++ '(' :: a.chars ++ [')']

/-- The canonical text. -/
def text (a : Expr) : String := String.ofList a.chars

end Expr

end CurvePlot
