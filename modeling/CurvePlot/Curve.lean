import CurvePlot.Formula

/-! Curves: formulas with the state of their drawing. -/

namespace CurvePlot

structure Color where
  r : UInt8
  g : UInt8
  b : UInt8
deriving DecidableEq, Repr

namespace Color

/-- The colors that curves are given in turn. -/
def palette : List Color :=
  [⟨0x1f, 0x77, 0xb4⟩, ⟨0xd6, 0x27, 0x28⟩, ⟨0x2c, 0xa0, 0x2c⟩, ⟨0xff, 0x7f, 0x0e⟩,
    ⟨0x94, 0x67, 0xbd⟩, ⟨0x8c, 0x56, 0x4b⟩, ⟨0xe3, 0x77, 0xc2⟩, ⟨0x17, 0xbe, 0xcf⟩]

/-- The color of the `i`-th curve. -/
def nth (i : Nat) : Color := palette.getD (i % palette.length) ⟨0, 0, 0⟩

/-- Two hexadecimal digits. -/
def channel (v : UInt8) : List Char := [(v.toNat / 16).digitChar, (v.toNat % 16).digitChar]

def text (c : Color) : String :=
  String.ofList ('#' :: channel c.r ++ channel c.g ++ channel c.b)

end Color

/-- How a curve is drawn where several overlap. -/
inductive Highlight where
  | none
  | highlighted
  | obscured
deriving DecidableEq, Repr

structure Curve where
  color : Color
  formula : Formula
  hidden : Bool := false
  highlight : Highlight := .none
deriving DecidableEq

namespace Curve

/-- A visible curve without a mark. -/
def new (color : Color) (formula : Formula) : Curve := { color, formula }

/-- A copy, with the formula read again from its canonical text. -/
def copy (c : Curve) : Except CopyError Curve := do
  return { c with formula := ← c.formula.copy }

def eval (c : Curve) (x : Float) : Float := c.formula.eval x

/-- Whether two curves look the same: formulas count by their canonical text. -/
def same (c d : Curve) : Bool :=
  c.color = d.color && c.formula.same d.formula && c.hidden = d.hidden &&
    c.highlight = d.highlight

/-- The mark of the `i`-th curve when the chosen one is to stand out. -/
def mark (chosen : Option Nat) (i : Nat) : Highlight :=
  match chosen with
  | none => .none
  | some k => if k = i then .highlighted else .obscured

/-- Highlights the chosen curve and obscures all others, or clears all marks. -/
def highlightOnly (chosen : Option Nat) (cs : List Curve) : List Curve :=
  cs.mapIdx fun i c => { c with highlight := mark chosen i }

end Curve

end CurvePlot
