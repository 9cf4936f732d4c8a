import CurvePlot.Canvas.Text
import CurvePlot.Proofs.Canvas.Cells

/-! The rows of a picture as text.

A cell is written as the last traced curve that falls into it (`cellText_getD`), or as what the axes show
there. A row is its label, the bar and the texts of its cells (`rowText_eq`), so that it can be said of a
plot without the numbers of its curves. -/

namespace CurvePlot.Canvas

variable {c : Canvas} {w : Window} {curves : List Curve} {p : Plot} {row column : Nat}

/-- The curve that shows in a cell. -/
def shown? (c : Canvas) (p : Plot) (row column : Nat) : Option Traced :=
  ((drawingOrder p.curves).filter (c.fallsInto p row column)).getLast?

/-- The character of the axes in a cell. -/
def axisMark (c : Canvas) (p : Plot) (row column : Nat) : Char :=
  match axisCell (c.horizontalAxis p) (c.verticalAxis p) row column with
  | .axis mark => mark
  | _ => ' '

/-- The text of a cell. -/
def shownText (c : Canvas) (p : Plot) (row column : Nat) : List Char :=
  match c.shown? p row column with
  | some t => swatch c.ansi t.curve
  | none => [c.axisMark p row column]

theorem cellText_axisCell (ansi : Bool) (curves : List Curve) (c : Canvas) (p : Plot)
    (row column : Nat) :
    cellText ansi curves (axisCell (c.horizontalAxis p) (c.verticalAxis p) row column) =
      [c.axisMark p row column] := by
  rw [axisMark, axisCell]
  split <;> rfl

theorem mem_of_shown? {t : Traced} (h : c.shown? p row column = some t) : t ∈ p.curves :=
  mem_drawingOrder.mp (List.mem_filter.mp (List.mem_of_getLast? h)).1

theorem cellText_getD (hp : p.window = w ∧ p.curves = c.trace w curves) (hrow : row < c.rows)
    (hcolumn : column < c.columns) :
    cellText c.ansi curves ((c.column p column).getD row .blank) = c.shownText p row column := by
  have hcell := cellAt_eq (p := p) hrow hcolumn
  rw [cellAt, picture, List.getElem?_map, List.getElem?_range hcolumn] at hcell
  rw [Array.getD_eq_getD_getElem?, show (c.column p column)[row]? = _ from hcell, shownText]
  cases hshown : c.shown? p row column with
  | none =>
    rw [shown?] at hshown
    rw [hshown]
    exact cellText_axisCell ..
  | some t =>
    have ht := mem_of_shown? hshown
    rw [hp.2] at ht
    obtain ⟨f, hget, -, heq⟩ := mem_trace.mp ht
    have hcurve : t.curve = f := by rw [heq, traced]
    rw [shown?] at hshown
    rw [hshown]
    simp only [Option.map_some, Option.some_or, Option.getD_some, cellText, hget, hcurve]

/-- The texts of the cells of a row. -/
def rowCells (c : Canvas) (p : Plot) (row : Nat) : List (List Char) :=
  (List.range c.columns).map (c.shownText p row)

/-- A row without the end of the line. -/
def line (c : Canvas) (p : Plot) (row : Nat) : List Char :=
  alignRight gutter (c.rowLabel p row) ++ ' ' :: '|' :: (c.rowCells p row).flatten

theorem rowText_eq (hp : p.window = w ∧ p.curves = c.trace w curves) (hrow : row < c.rows) :
    c.rowText curves p (c.picture p) row = c.line p row ++ ['\n'] := by
  have hcells : ((c.picture p).flatMap fun cells => cellText c.ansi curves (cells.getD row .blank)) =
      (c.rowCells p row).flatten := by
    rw [picture, rowCells, List.flatMap_def, List.map_map]
    refine congrArg List.flatten (List.map_congr_left fun column hcolumn => ?_)
    exact cellText_getD hp hrow (List.mem_range.mp hcolumn)
  rw [rowText, hcells, line, List.append_assoc]

/-- A picture is its rows and the line below them. -/
theorem toList_render (h : c.plot? w curves = some p) :
    (c.render w curves).toList =
      ((List.range c.rows).flatMap fun row => c.line p row ++ ['\n']) ++ c.footer w := by
  obtain ⟨hwindow, hcurves, -⟩ := plot?_eq_some h
  have hrows : (List.range c.rows).flatMap (c.rowText curves p (c.picture p)) =
      (List.range c.rows).flatMap fun row => c.line p row ++ ['\n'] := by
    rw [List.flatMap_def, List.flatMap_def]
    refine congrArg List.flatten (List.map_congr_left fun row hrow => ?_)
    exact rowText_eq ⟨hwindow, hcurves⟩ (List.mem_range.mp hrow)
  simp only [render, h, String.toList_ofList, hrows]

end CurvePlot.Canvas
