import CurvePlot.Main
import CurvePlot.Scanner.Text
import CurvePlot.Proofs.Except
import CurvePlot.Proofs.Grammar
import CurvePlot.Proofs.Grammar.Nesting
import CurvePlot.Proofs.Grammar.Parentheses
import CurvePlot.Proofs.Grammar.Arguments
import CurvePlot.Proofs.Reader.Depth
import CurvePlot.Proofs.Reader.Phrases
import CurvePlot.Proofs.Reader.Prefixes
import CurvePlot.Proofs.Reader.Grammar
import CurvePlot.Proofs.Reader.Moves
import CurvePlot.Proofs.Reader.Kinds
import CurvePlot.Proofs.Reader.Faults
import CurvePlot.Proofs.Reader.Shapes
import CurvePlot.Proofs.Reader.Viable
import CurvePlot.Proofs.Reader.Outline
import CurvePlot.Proofs.Reader.Descent
import CurvePlot.Proofs.Reader.Simulation
import CurvePlot.Proofs.Reader.Routines
import CurvePlot.Proofs.Reader.Limit
import CurvePlot.Proofs.Reader.Height
import CurvePlot.Proofs.Binary64.Nearest
import CurvePlot.Proofs.Binary64.Bits
import CurvePlot.Proofs.Binary64.Order
import CurvePlot.Proofs.Binary64.Rounding
import CurvePlot.Proofs.Binary64.Arithmetic
import CurvePlot.Proofs.Binary64.Special
import CurvePlot.Proofs.Decimal.ReadBack
import CurvePlot.Proofs.Decimal.Width
import CurvePlot.Proofs.Numeral.Literal
import CurvePlot.Proofs.Numeral.Layout
import CurvePlot.Proofs.Scanner.Moves
import CurvePlot.Proofs.Scanner.Conservation
import CurvePlot.Proofs.Token.Lexeme
import CurvePlot.Proofs.Token.Reading
import CurvePlot.Proofs.Token.Partition
import CurvePlot.Proofs.Token.Places
import CurvePlot.Proofs.Token.Hyphen
import CurvePlot.Proofs.Token.Alphabet
import CurvePlot.Proofs.Token.Blanks
import CurvePlot.Proofs.Expr.Tokens
import CurvePlot.Proofs.Expr.Normal
import CurvePlot.Proofs.Expr.Lexing
import CurvePlot.Proofs.Expr.Literals
import CurvePlot.Proofs.Expr.RoundTrip
import CurvePlot.Proofs.Expr.Meaning
import CurvePlot.Proofs.Expr.Parentheses
import CurvePlot.Proofs.Formula.Canonical
import CurvePlot.Proofs.Formula.Display
import CurvePlot.Proofs.Formula.Copy
import CurvePlot.Proofs.Formula.Position
import CurvePlot.Proofs.Series.Items
import CurvePlot.Proofs.Series.Join
import CurvePlot.Proofs.Series.Concat
import CurvePlot.Proofs.Series.Blank
import CurvePlot.Proofs.Sampling.Places
import CurvePlot.Proofs.Sampling.Segments
import CurvePlot.Proofs.Canvas.Traces
import CurvePlot.Proofs.Canvas.Cells
import CurvePlot.Proofs.Canvas.Rows
import CurvePlot.Proofs.Canvas.Visible
import CurvePlot.Proofs.Canvas.Labels
import CurvePlot.Proofs.Canvas.Columns
import CurvePlot.Proofs.Canvas.Scale
import CurvePlot.Proofs.Canvas.Escapes
import CurvePlot.Proofs.Session.Persisted
import CurvePlot.Proofs.Session.History
import CurvePlot.Proofs.Session.Safety
import CurvePlot.Proofs.Session.Language
import CurvePlot.Proofs.Options.Verbosity
import CurvePlot.Proofs.Program.Logging
import CurvePlot.Proofs.Program.Verbosity
import CurvePlot.Proofs.Program.Caret
