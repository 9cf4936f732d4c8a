import CurvePlot.Canvas
import CurvePlot.Log
import CurvePlot.Session
import CurvePlot.Text.Quoted

/-! What the operations of a session log, as functions of the same inputs. Nothing that is logged
takes part in the operations themselves. -/

namespace CurvePlot.Trace

open Log

/-- Splitting a text into tokens, if it can be split. -/
def ofTokenize (source : String) : List Record :=
  match Token.tokenize source with
  | .ok ts =>
    [⟨.trace, "lexers::math_tokenizer",
      "tokenized " ++ Text.quote source ++ " into " ++ ts.length.repr ++ " tokens"⟩]
  | .error _ => []

/-- Reading a formula. -/
def ofParse (g : Glyph) (raw : String) : List Record :=
  let message :=
    match Formula.parse g raw with
    | .ok f => "parsed " ++ Text.quote raw ++ " as " ++ Text.quote f.canonical
    | .error e => "rejected " ++ Text.quote raw ++ ": " ++ e.message
  ofTokenize (g.toCanonical raw) ++ [⟨.debug, "graficas::expression", message⟩]

/-- Reading several formulas up to the first one that fails. -/
def ofParses : List (Glyph × String) → List Record
  | [] => []
  | (g, raw) :: rest =>
    ofParse g raw ++
      match Formula.parse g raw with
      | .ok _ => ofParses rest
      | .error _ => []

/-- Loading a line into a session. -/
def ofLoad (s : Session) (line : String) : List Record :=
  let items := (Series.items line.toList).filter fun item => !Series.isBlankItem item
  ofParses (items.map fun item => (s.glyph, String.ofList item))

/-- Copying all formulas of a session. -/
def ofPersisted (s : Session) : List Record :=
  ofParses (s.curves.map fun c => (c.formula.glyph, c.formula.canonical))

/-- Plotting the series with the given text. -/
def ofPlotting (text : String) : List Record :=
  [⟨.info, "graficas", "plotting " ++ Text.quote text⟩]

/-- Looking for the lines of earlier runs where there are none. -/
def ofMissing (path : String) : List Record := [⟨.info, "graficas", "no history at " ++ path⟩]

/-- Reading a line from no terminal. -/
def ofReading : List Record := [⟨.debug, "rustyline", "stdin is not a tty"⟩]

/-- A number with at least one place behind its point, or with a power of ten from `1e16` on and
below `1e-4`. -/
def exactNumber (v : Float) : String :=
  String.ofList <|
    if v != 0 && (v.abs < 1e-4 || 1e16 ≤ v.abs) then Decimal.exponential v
    else
      let cs := Decimal.plain v
      if cs.contains '.' then cs else cs ++ ['.', '0']

/-- A command in the words of the log. -/
def describe : Command → String
  | .range w => "Range(" ++ exactNumber w.left ++ ", " ++ exactNumber w.right ++ ")"
  | .hide i => "Hide(" ++ i.repr ++ ")"
  | .unhide i => "Show(" ++ i.repr ++ ")"
  | .highlight none => "Highlight(None)"
  | .highlight (some i) => "Highlight(Some(" ++ i.repr ++ "))"
  | .quit => "Quit"

/-- Carrying out a command that does not end the session. -/
def ofApply (s : Session) (command : Command) : List Record :=
  match s.apply command with
  | .ok (some _) => [⟨.debug, "graficas::session", "applied " ++ describe command⟩]
  | _ => []

/-- What a line of input does to a session. -/
def ofReply (s : Session) (line : String) : List Record :=
  if line.toList.all Text.isSpace then []
  else
    match Command.parse? line with
    | some (.ok command) => ofApply s command
    | some (.error _) => []
    | none => ofLoad s line

/-- Drawing a picture, if there is something to draw. -/
def ofRender (c : Canvas) (s : Session) : List Record :=
  match c.plot? s.window s.curves with
  | some p =>
    [⟨.debug, "graficas::plot",
      "plotting " ++ p.curves.length.repr ++ " curves, y in " ++ (Window.mk p.lo p.hi).text⟩]
  | none => []

end CurvePlot.Trace
