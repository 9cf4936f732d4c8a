import CurvePlot.Binary64

/-! Expressions in one variable: their trees, and the names of functions and constants. -/

namespace CurvePlot

/-- Functions of one argument. -/
inductive Func where
  | sin
  | cos
  | tan
  | asin
  | acos
  | atan
  | sinh
  | cosh
  | tanh
  | exp
  | ln
  | log2
  | log10
  | sqrt
  | abs
  | sign
  | floor
  | ceil
  | round
deriving DecidableEq, Repr

namespace Func

def all : List Func :=
  [sin, cos, tan, asin, acos, atan, sinh, cosh, tanh, exp, ln, log2, log10, sqrt, abs, sign,
    floor, ceil, round]

def name : Func → String
  | sin => "sin"
  | cos => "cos"
  | tan => "tan"
  | asin => "asin"
  | acos => "acos"
  | atan => "atan"
  | sinh => "sinh"
  | cosh => "cosh"
  | tanh => "tanh"
  | exp => "exp"
  | ln => "ln"
  | log2 => "log2"
  | log10 => "log10"
  | sqrt => "sqrt"
  | abs => "abs"
  | sign => "sign"
  | floor => "floor"
  | ceil => "ceil"
  | round => "round"

def ofName? (s : String) : Option Func := all.find? fun f => f.name == s

end Func

/-- Named numbers. -/
inductive Constant where
  | pi
  | e
deriving DecidableEq, Repr

namespace Constant

def name : Constant → String
  | pi => "pi"
  | e => "e"

def ofName? (s : String) : Option Constant := [pi, e].find? fun c => c.name == s

end Constant

inductive BinOp where
  | add
  | sub
  | mul
  | div
  | pow
deriving DecidableEq, Repr

/-- An expression. The `==` of two trees compares literals as numbers, so that a literal that is
no number makes a tree differ from itself; `=` compares their bits. -/
inductive Expr where
  | number (value : Float)
  | var
  | const (c : Constant)
  | neg (a : Expr)
  | binary (op : BinOp) (a b : Expr)
  | call (f : Func) (a : Expr)
deriving DecidableEq, BEq

namespace Expr

/-- The name of the variable. -/
def variableName : String := "x"

end Expr

/-- What a name stands for. -/
inductive Name where
  | operand (a : Expr)
  | function (f : Func)

/-- The meaning of a name, if it has one. -/
def Name.resolve (s : String) : Option Name :=
  if s == Expr.variableName then some (.operand .var)
  else
    match Constant.ofName? s with
    | some c => some (.operand (.const c))
    | none => (Func.ofName? s).map .function

end CurvePlot
