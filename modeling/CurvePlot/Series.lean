import CurvePlot.Formula
import CurvePlot.Text.Blank

/-! Several formulas in one text, separated by semicolons. Canonical texts hold none, so that
`Series.join` can be read back. -/

namespace CurvePlot

/-- An item of a series that is no formula. -/
structure SeriesError where
  /-- The number of items before it that are not blank. -/
  index : Nat
  /-- The position of the fault in the whole text, in characters. -/
  offset : Nat
  cause : ReadError
deriving DecidableEq

def SeriesError.message (e : SeriesError) : String :=
  "expression " ++ (e.index + 1).repr ++ " (position " ++ e.offset.repr ++ "): " ++ e.cause.message

namespace Series

def separator : Char := ';'

/-- The canonical texts, with separators between them. -/
def join (fs : List Formula) : String :=
  String.intercalate separator.toString (fs.map Formula.canonical)

/-- The items between the separators of a text. There is always one. -/
def items : List Char → List (List Char)
  | [] => [[]]
  | c :: cs =>
    if c = separator then [] :: items cs
    else
      match items cs with
      | [] => [[c]]
      | item :: rest => (c :: item) :: rest

/-- Whether an item is left out. -/
def isBlankItem (item : List Char) : Bool := item.all Text.isSpace

/-- Reads items, the first of which starts at `start` and follows `index` formulas. -/
def readItems (g : Glyph) (index start : Nat) :
    List (List Char) → Except SeriesError (List Formula)
  | [] => .ok []
  | item :: rest =>
    if isBlankItem item then readItems g index (start + item.length + 1) rest
    else
      match Formula.parse g (String.ofList item) with
      | .error cause => .error { index, offset := start + cause.offset, cause }
      | .ok f => do return f :: (← readItems g (index + 1) (start + item.length + 1) rest)

/-- Reads the items that are not blank, up to the first one that is no formula. -/
def split (g : Glyph) (text : String) : Except SeriesError (List Formula) :=
  readItems g 0 0 (items text.toList)

end Series

end CurvePlot
