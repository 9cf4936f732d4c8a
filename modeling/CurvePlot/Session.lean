import CurvePlot.Curve
import CurvePlot.Series
import CurvePlot.Session.Command

/-! Sessions: the curves that are plotted and the window that they are plotted in. -/

namespace CurvePlot

structure Session where
  curves : List Curve
  window : Window
  glyph : Glyph
deriving DecidableEq

/-- Why a command cannot be carried out. -/
inductive SessionError where
  | noFunction (index count : Nat)
deriving DecidableEq, Repr

def SessionError.message : SessionError → String
  | noFunction index count =>
    "no function " ++ (index + 1).repr ++ " (have " ++ count.repr ++ ")"

namespace Session

/-- A session without curves. -/
def new (window : Window) (glyph : Glyph) : Session := { curves := [], window, glyph }

/-- Visible curves in the colors of the palette. -/
def color (fs : List Formula) : List Curve := fs.mapIdx fun i f => .new (.nth i) f

/-- Replaces all curves by those of the series in a line. -/
def load (s : Session) (line : String) : Except SeriesError Session := do
  return { s with curves := color (← Series.split s.glyph line) }

/-- Changes the curve with the given number, which has to exist. -/
def change (s : Session) (i : Nat) (f : Curve → Curve) : Except SessionError Session :=
  if i < s.curves.length then .ok { s with curves := s.curves.modify i f }
  else .error (.noFunction i s.curves.length)

/-- Carries out a command. The session is over after `quit`. -/
def apply (s : Session) : Command → Except SessionError (Option Session)
  | .range window => .ok (some { s with window })
  | .hide i => some <$> s.change i fun c => { c with hidden := true }
  | .unhide i => some <$> s.change i fun c => { c with hidden := false }
  | .highlight none => .ok (some { s with curves := Curve.highlightOnly none s.curves })
  | .highlight (some i) =>
    if i < s.curves.length then
      .ok (some { s with curves := Curve.highlightOnly (some i) s.curves })
    else .error (.noFunction i s.curves.length)
  | .quit => .ok none

/-- What a line of input does to a session. -/
inductive Reply where
  /-- The line is blank. -/
  | nothing
  /-- The line is a command to end the session. -/
  | quit
  /-- The line is a command that is carried out, or a series. -/
  | changed (session : Session)
  /-- The line begins like a command and is none. -/
  | badCommand (error : CommandError)
  /-- The line is a command that cannot be carried out. -/
  | refused (error : SessionError)
  /-- The line is neither a command nor a series. -/
  | badSeries (error : SeriesError)
deriving DecidableEq

/-- Takes a line for a command if it begins like one, else for a series, unless it is blank. -/
def reply (s : Session) (line : String) : Reply :=
  if line.toList.all Text.isSpace then .nothing
  else
    match Command.parse? line with
    | some (.ok command) =>
      match s.apply command with
      | .ok (some s) => .changed s
      | .ok none => .quit
      | .error e => .refused e
    | some (.error e) => .badCommand e
    | none =>
      match s.load line with
      | .ok s => .changed s
      | .error e => .badSeries e

/-- The series of all curves, from copies of their formulas. -/
def persisted (s : Session) : Except CopyError String := do
  return Series.join (← s.curves.mapM fun c => c.formula.copy)

end Session

end CurvePlot
