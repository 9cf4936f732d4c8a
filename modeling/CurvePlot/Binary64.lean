/-! Double precision numbers taken apart into natural numbers, so that rounding to and from them
is exact arithmetic.

The bits below the sign number the magnitudes from zero up: `0` is zero, `1` the smallest
positive value, and `infinity` the first magnitude that is not finite. `units` gives the value of
a magnitude as a multiple of the smallest positive value, and is strictly increasing.

* `nearest` is the magnitude closest to a given ratio, a tie going to the even one.
* `ofRatio` and `ofNat` round a nonnegative ratio or natural number.
* `Rounding.apply` rounds a number to an integer, keeping the sign of a zero. -/

namespace CurvePlot.Binary64

/-- The place of `x` among the numbers of its sign, counted from zero. -/
def magnitude (x : Float) : Nat := x.toBits.toNat % 1 <<< 63

/-- The sign bit, which zeros have too. -/
def isNegative (x : Float) : Bool := decide (1 <<< 63 ≤ x.toBits.toNat)

/-- The magnitude of the two infinities. Magnitudes above it are not numbers. -/
def infinity : Nat := 2047 <<< 52

/-- How many times the smallest positive value goes into `1`. -/
def one : Nat := 1 <<< 1074

/-- The value of a finite magnitude, in multiples of the smallest positive value. -/
def units (n : Nat) : Nat :=
  if n < 1 <<< 52 then n else (1 <<< 52 + n % 1 <<< 52) <<< (n / 1 <<< 52 - 1)

/-- The greatest magnitude whose value is at most `t` units. -/
def floorMagnitude (t : Nat) : Nat :=
  let k := t.log2 - 52
  k <<< 52 + t >>> k

/-- The magnitude closest to `num / den` units. Two magnitudes equally close leave the even one,
and a value at least halfway past the last finite magnitude gives `infinity`. -/
def nearest (num den : Nat) : Nat :=
  let n := floorMagnitude (num / den)
  let up :=
    match compare (2 * num) ((units n + units (n + 1)) * den) with
    | .lt => false
    | .eq => n % 2 = 1
    | .gt => true
  min (if up then n + 1 else n) infinity

/-- The number with the given sign and magnitude. -/
def ofMagnitude (negative : Bool) (n : Nat) : Float :=
  Float.ofBits (n + if negative then 1 <<< 63 else 0).toUInt64

/-- The number closest to `num / den`. -/
def ofRatio (num den : Nat) : Float := ofMagnitude false (nearest (num * one) den)

/-- The number closest to `n`. -/
def ofNat (n : Nat) : Float := ofRatio n 1

/-- The magnitude as a natural number, half units going up. -/
def roundToNat (x : Float) : Nat := (2 * units (magnitude x) + one) / (2 * one)

/-- How a number between two integers is taken to one of them. -/
inductive Rounding where
  | down
  | up
  | halfAway
deriving DecidableEq, Repr

namespace Rounding

/-- The absolute value of the integer that a number of `u` units becomes. -/
def absolute (r : Rounding) (negative : Bool) (u : Nat) : Nat :=
  match r, negative with
  | .down, false | .up, true => u / one
  | .down, true | .up, false => (u + (one - 1)) / one
  | .halfAway, _ => (2 * u + one) / (2 * one)

/-- From here on every magnitude is an integer, an infinity or no number. -/
def integral : Nat := 1075 <<< 52

/-- The integer that `x` rounds to. A zero keeps the sign of `x`, and what is no finite number
stays what it is. -/
def apply (r : Rounding) (x : Float) : Float :=
  let n := magnitude x
  if integral ≤ n then x
  else
    let negative := isNegative x
    ofMagnitude negative (nearest (r.absolute negative (units n) * one) 1)

end Rounding

end CurvePlot.Binary64
