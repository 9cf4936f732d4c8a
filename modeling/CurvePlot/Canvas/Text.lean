import CurvePlot.Canvas

/-! Pictures and legends as text.

The grid stands behind a gutter with the values of its top and bottom rows; a line below it gives
the ends of the window. In color, every dot of a curve is enclosed in escape sequences of the form
`ESC [ … m`. -/

namespace CurvePlot.Canvas

/-- The character that curves are drawn with. -/
def dot : Char := '\u2022'

/-- The width of the labels of rows. -/
def gutter : Nat := 10

/-- Puts blanks before a text up to the given width. -/
def alignRight (width : Nat) (cs : List Char) : List Char :=
  List.replicate (width - cs.length) ' ' ++ cs

/-- A number to three places, or with a power of ten from `1e6` on and below `1e-3`. -/
def label (v : Float) : List Char :=
  if v != 0 && !(1e-3 ≤ v.abs && v.abs < 1e6) then Decimal.rounded 2 v else Decimal.fixed 3 v

/-- An escape sequence with the given parameters. -/
def escape (parameters : List Char) : List Char := '\x1b' :: '[' :: parameters ++ ['m']

/-- The parameters that set a color. -/
def colorParameters (c : Color) : List Char :=
  let channel (v : UInt8) := ';' :: Nat.toDigits 10 v.toNat
  "38;2".toList ++ channel c.r ++ channel c.g ++ channel c.b

/-- Sets how heavily a mark is drawn. -/
def weight : Highlight → List Char
  | .none => []
  | .highlighted => escape ['1']
  | .obscured => escape ['2']

/-- The dot of a curve. -/
def swatch (ansi : Bool) (c : Curve) : List Char :=
  if ansi then weight c.highlight ++ escape (colorParameters c.color) ++ dot :: escape ['0']
  else [dot]

/-- The text of a cell, for curves of which `curves` gives the one with its number. -/
def cellText (ansi : Bool) (curves : List Curve) : Cell → List Char
  | .blank => [' ']
  | .axis c => [c]
  | .curve index =>
    match curves[index]? with
    | some c => swatch ansi c
    | none => [dot]

/-- The label of a row. -/
def rowLabel (c : Canvas) (p : Plot) (row : Nat) : List Char :=
  if row = 0 then label p.hi else if row = c.rows - 1 then label p.lo else []

/-- A row of the grid with its label. -/
def rowText (c : Canvas) (curves : List Curve) (p : Plot) (picture : List (Array Cell))
    (row : Nat) : List Char :=
  alignRight gutter (c.rowLabel p row) ++ ' ' :: '|' ::
    (picture.flatMap fun cells => cellText c.ansi curves (cells.getD row .blank)) ++ ['\n']

/-- The line below the grid. -/
def footer (c : Canvas) (w : Window) : List Char :=
  let left := label w.left
  List.replicate gutter ' ' ++ left ++
    alignRight (c.columns + 2 - left.length) (label w.right) ++ ['\n']

/-- The picture of the visible curves, or a line that there is none. -/
def render (c : Canvas) (w : Window) (curves : List Curve) : String :=
  match c.plot? w curves with
  | none => "nothing to plot in " ++ w.text ++ "\n"
  | some p =>
    let picture := c.picture p
    String.ofList (((List.range c.rows).flatMap (c.rowText curves p picture)) ++ c.footer w)

/-- What the legend adds to the text of a curve. -/
def remark (c : Curve) : String :=
  if c.hidden then " (hidden)"
  else if c.highlight = .highlighted then " (highlighted)"
  else ""

/-- A line of the legend. -/
def legendLine (ansi : Bool) (c : Curve) (index : Nat) : String :=
  "[" ++ (index + 1).repr ++ "] " ++ String.ofList (swatch ansi c) ++ " " ++ c.formula.display ++
    remark c ++ "\n"

/-- One line for each curve, hidden ones too, with its number. -/
def legend (c : Canvas) (curves : List Curve) : String :=
  String.join (curves.mapIdx fun index curve => legendLine c.ansi curve index)

end CurvePlot.Canvas
