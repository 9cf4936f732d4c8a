import CurvePlot.Expr

/-! The value of an expression. Arithmetic is that of double precision numbers: no expression
lacks a value, but it may be infinite or no number. -/

namespace CurvePlot

/-- The value of a function. Outside its domain it is no number. -/
def Func.apply : Func → Float → Float
  | .sin, x => x.sin
  | .cos, x => x.cos
  | .tan, x => x.tan
  | .asin, x => x.asin
  | .acos, x => x.acos
  | .atan, x => x.atan
  | .sinh, x => x.sinh
  | .cosh, x => x.cosh
  | .tanh, x => x.tanh
  | .exp, x => x.exp
  | .ln, x => x.log
  | .log2, x => x.log2
  | .log10, x => x.log10
  | .sqrt, x => x.sqrt
  | .abs, x => x.abs
  | .sign, x => if x == 0 || x.isNaN then x else if x < 0 then -1 else 1
  | .floor, x => Binary64.Rounding.down.apply x
  | .ceil, x => Binary64.Rounding.up.apply x
  | .round, x => Binary64.Rounding.halfAway.apply x

def Constant.value : Constant → Float
  | .pi => 3.141592653589793
  | .e => 2.718281828459045

def BinOp.apply : BinOp → Float → Float → Float
  | .add, a, b => a + b
  | .sub, a, b => a - b
  | .mul, a, b => a * b
  | .div, a, b => a / b
  | .pow, a, b => a ^ b

/-- The value of an expression when its variable is `x`. -/
def Expr.eval (x : Float) : Expr → Float
  | number v => v
  | var => x
  | const c => c.value
  | neg a => -a.eval x
  | binary op a b => op.apply (a.eval x) (b.eval x)
  | call f a => f.apply (a.eval x)

end CurvePlot
