import CurvePlot.Decimal

/-! The decimal with the fewest digits that is closer to a given magnitude than to any other.

The grids of multiples of `10 ^ e` are tried from the leading digit of the value downwards, and
on each of them the two neighbours of the value. The first grid with a neighbour that reads back
decides. When both neighbours do, the closer one is taken, and the greater one of two equally
close. Seventeen digits always suffice. The digits of the exact value close the search, so that
the result reads back whatever the search does. -/

namespace CurvePlot.Decimal

/-- The value of magnitude `n` over `10 ^ e`, as a ratio. -/
def scaled (n : Nat) (e : Int) : Nat × Nat :=
  (Binary64.units n * Nat.pow 10 (-e).toNat, Binary64.one * Nat.pow 10 e.toNat)

/-- The greatest `p` for which `10 ^ p` is at most the value of the magnitude `n`. The search
starts at a bound from the binary logarithm, which is a little more than three tenths of it. -/
def placeOf (n : Nat) : Int :=
  let top : Int := ((Binary64.units n).log2 - 1074 : Int) * 3 / 10 + 3
  let below := (List.range 8).find? fun (k : Nat) =>
    let (num, den) := scaled n (top - k)
    den ≤ num
  top - below.getD 8

/-- The multiple of `10 ^ e` next to the value of `n` that reads back as `n`, if there is one. -/
def onGrid (n : Nat) (e : Int) : Option Decimal :=
  let (num, den) := scaled n e
  let c := num / den
  let lower : Decimal := ⟨c, e⟩
  let upper : Decimal := if c = 9 then ⟨1, e + 1⟩ else ⟨c + 1, e⟩
  if lower.magnitude = n ∧ (upper.magnitude ≠ n ∨ 2 * (num % den) < den) then some lower
  else if upper.magnitude = n then some upper
  else none

/-- All digits of the value of `n`. -/
def exact (n : Nat) : Decimal := ⟨Binary64.units n * Nat.pow 5 1074, -1074⟩

/-- The shortest decimal that reads back as the magnitude `n`. -/
def shortest (n : Nat) : Decimal :=
  if n = 0 then ⟨0, 0⟩
  else
    let p := placeOf n
    ((List.range 17).findSome? fun (k : Nat) => onGrid n (p - k)).getD (exact n)

end CurvePlot.Decimal
