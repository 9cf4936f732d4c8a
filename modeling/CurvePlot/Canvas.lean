import CurvePlot.Curve
import CurvePlot.Sampling

/-! Drawing curves into cells of text, one sample a column.

`Canvas.plot?` samples the visible curves and fits the scale to their finite values. A column of the
picture starts with the axes; the curves are painted over it in `drawingOrder`, so that of two
samples in one cell the later one shows. -/

namespace CurvePlot

/-- What a cell shows: nothing, a piece of an axis, or the curve of the given number. -/
inductive Cell where
  | blank
  | axis (c : Char)
  | curve (index : Nat)
deriving DecidableEq, Repr

/-- A visible curve, its place among all curves and its samples, one for each column. -/
structure Traced where
  index : Nat
  curve : Curve
  samples : Array Sample

/-- The sampled curves and the values at the bottom and the top of the picture. -/
structure Plot where
  window : Window
  curves : List Traced
  lo : Float
  hi : Float

/-- The size of a picture, and whether it is written in color. -/
structure Canvas where
  width : Nat
  height : Nat
  ansi : Bool
deriving DecidableEq, Repr

namespace Canvas

/-- The number of columns. There are at least two. -/
def columns (c : Canvas) : Nat := max c.width 2

/-- The number of rows. There are at least two. -/
def rows (c : Canvas) : Nat := max c.height 2

/-- Which of `cells` cells the value `v` falls into, counted from the one of `lo`. Values below the
first cell are drawn in it, values above the last one in that one, and so are values that cannot be
placed. -/
def scale (v lo hi : Float) (cells : Nat) : Nat :=
  let t := (v - lo) / (hi - lo) * Binary64.ofNat (cells - 1)
  if 0 < t then min (Binary64.roundToNat t) (cells - 1) else 0

/-- The row of a value, counted from the top. -/
def rowOf (c : Canvas) (p : Plot) (v : Float) : Nat := c.rows - 1 - scale v p.lo p.hi c.rows

/-- The visible curves with their samples. -/
def trace (c : Canvas) (w : Window) (curves : List Curve) : List Traced :=
  let sampling : Sampling := ⟨w, c.columns - 1⟩
  curves.zipIdx.filterMap fun (curve, index) =>
    if curve.hidden then none
    else some ⟨index, curve, (sampling.sample curve.formula).toArray⟩

/-- The least and the greatest of some values, if there are any. Of equal ones, as zeros of both
signs are, the last one is taken. -/
def extremes : List Float → Option (Float × Float)
  | [] => none
  | y :: ys => some <| ys.foldl
      (fun (lo, hi) y => (if y ≤ lo then y else lo, if hi ≤ y then y else hi)) (y, y)

/-- Moves equal extremes apart. -/
def widen (lo hi : Float) : Float × Float := if lo == hi then (lo - 1, hi + 1) else (lo, hi)

/-- What there is to draw, if any visible sample is finite. -/
def plot? (c : Canvas) (w : Window) (curves : List Curve) : Option Plot :=
  let traced := c.trace w curves
  let values := traced.flatMap fun t => t.samples.toList.map Sample.y
  (extremes (values.filter Float.isFinite)).map fun (lo, hi) =>
    let (lo, hi) := widen lo hi
    ⟨w, traced, lo, hi⟩

/-- The row of the horizontal axis. -/
def horizontalAxis (c : Canvas) (p : Plot) : Option Nat :=
  if p.lo ≤ 0 ∧ 0 ≤ p.hi then some (c.rowOf p 0) else none

/-- The column of the vertical axis. -/
def verticalAxis (c : Canvas) (p : Plot) : Option Nat :=
  if p.window.left ≤ 0 ∧ 0 ≤ p.window.right then
    some (scale 0 p.window.left p.window.right c.columns)
  else none

/-- What a cell shows where there is no curve. -/
def axisCell (horizontal vertical : Option Nat) (row column : Nat) : Cell :=
  match decide (horizontal = some row), decide (vertical = some column) with
  | true, true => .axis '+'
  | true, false => .axis '-'
  | false, true => .axis '|'
  | false, false => .blank

/-- The order in which curves are drawn: obscured ones first and highlighted ones last. -/
def drawingOrder (curves : List Traced) : List Traced :=
  let layer (h : Highlight) := curves.filter fun t => t.curve.highlight = h
  layer .obscured ++ layer .none ++ layer .highlighted

/-- Paints the sample of a curve into a column. -/
def paint (c : Canvas) (p : Plot) (column : Nat) (cells : Array Cell) (t : Traced) : Array Cell :=
  match t.samples[column]? with
  | some s => if s.y.isFinite then cells.setIfInBounds (c.rowOf p s.y) (.curve t.index) else cells
  | none => cells

/-- The cells of a column from top to bottom. -/
def column (c : Canvas) (p : Plot) (column : Nat) : Array Cell :=
  let axes := axisCell (c.horizontalAxis p) (c.verticalAxis p)
  let empty := (Array.range c.rows).map fun row => axes row column
  (drawingOrder p.curves).foldl (c.paint p column) empty

/-- The columns of the picture from left to right. -/
def picture (c : Canvas) (p : Plot) : List (Array Cell) :=
  (List.range c.columns).map (c.column p)

end Canvas

end CurvePlot
