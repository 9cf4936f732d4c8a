import CurvePlot.Binary64

/-! Decimal numbers of finitely many digits: a natural coefficient times a power of ten.

`Decimal.toFloat` is the closest double precision number. The powers of ten that it computes are
bounded by the number of digits of the coefficient, however large the exponent. -/

namespace CurvePlot

/-- The number `coefficient * 10 ^ exponent`. -/
structure Decimal where
  coefficient : Nat
  exponent : Int
deriving DecidableEq, Repr

namespace Decimal

/-- The digits of the coefficient, `0` for zero. -/
def digits (d : Decimal) : List Char := Nat.toDigits 10 d.coefficient

/-- The place of the first digit: `0` for the units, `1` for the tens, `-1` for the tenths. -/
def leadingPlace (d : Decimal) : Int := d.exponent + d.digits.length - 1

/-- The magnitude closest to `d`. -/
def magnitude (d : Decimal) : Nat :=
  Binary64.nearest (d.coefficient * Nat.pow 10 d.exponent.toNat * Binary64.one)
    (Nat.pow 10 (-d.exponent).toNat)

/-- The closest number. Values from `10 ^ 400` on are infinite and values below `10 ^ (-400)` are
zero, so that neither needs its power of ten. -/
def toFloat (d : Decimal) : Float :=
  Binary64.ofMagnitude false <|
    if d.coefficient = 0 then 0
    else if 400 ≤ d.leadingPlace then Binary64.infinity
    else if d.leadingPlace < -400 then 0
    else d.magnitude

end Decimal

end CurvePlot
