import CurvePlot.Expr.Parser
import CurvePlot.Expr.Printer
import CurvePlot.Expr.Value
import CurvePlot.Glyph

/-! Formulas: expressions with the minus sign that they are typed and shown with.

Two formulas are the same when their canonical texts are, whatever blanks, parentheses and minus
signs they were typed with. A copy is read from the canonical text. It may fail: parentheses that
were dropped can join several short chains of operators into one that is too long. -/

namespace CurvePlot

structure Formula where
  tree : Expr
  glyph : Glyph
deriving DecidableEq

namespace Formula

/-- Reads a formula typed with the minus sign `g`. -/
def parse (g : Glyph) (raw : String) : Except ReadError Formula := do
  return { tree := ← Expr.ofText (g.toCanonical raw), glyph := g }

/-- The text with hyphens for minus signs, which is kept and compared. -/
def canonical (f : Formula) : String := f.tree.text

/-- The text shown to the user. -/
def display (f : Formula) : String := f.glyph.toDisplay f.canonical

def eval (f : Formula) (x : Float) : Float := f.tree.eval x

/-- Whether two formulas have the same canonical text. -/
def same (f g : Formula) : Bool := f.canonical == g.canonical

end Formula

/-- A formula whose canonical text does not read back. -/
structure CopyError where
  canonical : String
  cause : ReadError
deriving DecidableEq

/-- Canonical texts hold no quotation marks, so that the message can enclose them as they are. -/
def CopyError.message (e : CopyError) : String :=
  "Unparser bug! \"" ++ e.canonical ++ "\" doesn't parse back: " ++ e.cause.message

namespace Formula

/-- A copy of a formula that is shown with the minus sign `g`. -/
def withGlyph (f : Formula) (g : Glyph) : Except CopyError Formula :=
  (parse g f.canonical).mapError fun cause => { canonical := f.canonical, cause }

def copy (f : Formula) : Except CopyError Formula := f.withGlyph f.glyph

end Formula

end CurvePlot
