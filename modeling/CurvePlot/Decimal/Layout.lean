import CurvePlot.Decimal.Shortest

/-! Written forms of numbers.

* `positional` and `scientific` lay out a decimal without and with a power of ten.
* `plain` and `exponential` write a number with the fewest digits that read back.
* `fixed` and `rounded` write a number to so many places or digits, rounding its exact value with
  ties going to the even digit. -/

namespace CurvePlot.Decimal

/-- A sign for negative numbers only. -/
def signed (negative : Bool) (cs : List Char) : List Char :=
  if negative then '-' :: cs else cs

/-- The digits of an integer. -/
def integerText (n : Int) : List Char := signed (n < 0) (Nat.toDigits 10 n.natAbs)

/-- The digits of `d` around its decimal point, which is left out at the end. -/
def positional (d : Decimal) : List Char :=
  let ds := d.digits
  if 0 ≤ d.exponent then ds ++ List.replicate d.exponent.toNat '0'
  else
    let places := (-d.exponent).toNat
    if places < ds.length then
      ds.take (ds.length - places) ++ '.' :: ds.drop (ds.length - places)
    else '0' :: '.' :: List.replicate (places - ds.length) '0' ++ ds

/-- One digit before the decimal point, the others behind it, and the power of ten. -/
def scientific (d : Decimal) : List Char :=
  let mantissa :=
    match d.digits with
    | c :: c' :: cs => c :: '.' :: c' :: cs
    | ds => ds
  mantissa ++ 'e' :: integerText d.leadingPlace

/-- The text of `x`: a word if it is no finite number, else a sign and what `f` gives for the
magnitude. -/
def write (f : Nat → List Char) (x : Float) : List Char :=
  let n := Binary64.magnitude x
  if Binary64.infinity < n then "NaN".toList
  else signed (Binary64.isNegative x) (if n = Binary64.infinity then "inf".toList else f n)

/-- The shortest digits that read back, never with a power of ten. -/
def plain (x : Float) : List Char := write (fun n => (shortest n).positional) x

/-- The shortest digits that read back, always with a power of ten. -/
def exponential (x : Float) : List Char := write (fun n => (shortest n).scientific) x

/-- The integer closest to `num / den`, the even one of two. -/
def roundEven (num den : Nat) : Nat :=
  let q := num / den
  match compare (2 * (num % den)) den with
  | .lt => q
  | .eq => q + q % 2
  | .gt => q + 1

/-- The value to so many places behind the decimal point. -/
def fixed (places : Nat) (x : Float) : List Char :=
  write (fun n =>
    positional ⟨roundEven (Binary64.units n * Nat.pow 10 places) Binary64.one, -places⟩) x

/-- The value of a nonzero number to one digit and so many more, with a power of ten. -/
def rounded (more : Nat) (x : Float) : List Char :=
  write (fun n =>
    let e := placeOf n - more
    let (num, den) := scaled n e
    let c := roundEven num den
    scientific (if c = Nat.pow 10 (more + 1) then ⟨Nat.pow 10 more, e + 1⟩ else ⟨c, e⟩)) x

end CurvePlot.Decimal
