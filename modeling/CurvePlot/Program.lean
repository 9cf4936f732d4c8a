import CurvePlot.Canvas.Text
import CurvePlot.Program.Host

/-! The program: with an expression among its arguments it plots that and ends, without one it
reads lines and answers each of them.

* `Program.startOn` reads the arguments and does all that needs no further input.
* `Program.step` answers one line, `Program.runOn` those of a whole input.
* `caret` points at the fault in a line.

What libraries and the system give is that of a `Host`; `Program.run` is a run on the standard one. -/

namespace CurvePlot

/-- Points at the fault of a series under a text that was shown `indent` columns to the right, and
tells what it is. Tabs before the fault stay tabs. -/
def caret (source : String) (indent : Nat) (e : SeriesError) : String :=
  let pad := (source.toList.take e.offset).map fun c => if c = '\t' then '\t' else ' '
  String.ofList (List.replicate indent ' ' ++ pad ++ ['^', '\n']) ++ e.message

/-- The prompt that lines are typed behind. -/
def prompt : String := "~> "

/-- The report on a formula that cannot be copied, which breaks the program off. The system knows the
main thread by a number. -/
def CopyError.report (e : CopyError) (thread : Nat) : String :=
  "\nthread 'main' (" ++ thread.repr ++ ") panicked at graficas/src/expression.rs:82:25:\n" ++
    e.message ++
    "\nnote: run with `RUST_BACKTRACE=1` environment variable to display a backtrace\n"

structure Program where
  canvas : Canvas
  level : Log.Level
  session : Session

namespace Program

/-- The lines of the records that are shown. -/
def logged (p : Program) (rs : List Log.Record) : Output := ⟨"", Log.lines p.level rs⟩

/-- The legend and the picture of the current curves. -/
def draw (p : Program) : Output :=
  let s := p.session
  p.logged (Trace.ofRender p.canvas s) ++
    ⟨p.canvas.legend s.curves ++ p.canvas.render s.window s.curves, ""⟩

/-- The answer to a line. -/
def answer (p : Program) (line : String) : Session.Reply → Output
  | .nothing | .quit => {}
  | .changed s => { p with session := s }.draw
  | .badCommand e => ⟨e.message ++ "\n", ""⟩
  | .refused e => ⟨e.message ++ "\n", ""⟩
  | .badSeries e => ⟨caret line prompt.length e ++ "\n", ""⟩

/-- Answers one line. There is no program left after the command to quit. -/
def step (p : Program) (line : String) : Option Program × Output :=
  let reply := p.session.reply line
  let output := p.logged (Trace.ofReply p.session line) ++ p.answer line reply
  match reply with
  | .quit => (none, output)
  | .changed s => (some { p with session := s }, output)
  | _ => (some p, output)

/-- Plots the given words. When their canonical text is logged, it has to read back. -/
def oneShot (p : Program) (thread : Nat) (words : List String) : Outcome :=
  let input := String.intercalate " " words
  let read := p.logged (Trace.ofLoad p.session input)
  match p.session.load input with
  | .error e => ⟨1, read ++ ⟨"", input ++ "\n" ++ caret input 0 e ++ "\n"⟩⟩
  | .ok s =>
    let drawn := { p with session := s }.draw
    if !p.level.shows .info then ⟨0, read ++ drawn⟩
    else
      let copied := p.logged (Trace.ofPersisted s)
      match s.persisted with
      | .error e => ⟨101, read ++ copied ++ ⟨"", e.report thread⟩⟩
      | .ok text => ⟨0, read ++ copied ++ p.logged (Trace.ofPlotting text) ++ drawn⟩

/-- Ends the program after the given lines, which are kept for later runs. -/
def leave (history : Option History) (typed : List String) : Outcome :=
  match history.bind fun h => h.refusal typed with
  | some reason => .ofError reason
  | none => ⟨0, {}⟩

/-- The lines to keep, with the next one unless it is blank. -/
def keep (typed : List String) (line : String) : List String :=
  if line.toList.all Text.isSpace then typed else typed ++ [line]

/-- Answers lines until there are none or one of them quits. Those before were `typed`. -/
def answerAll (p : Program) (history : Option History) (typed : List String) :
    List Turn → Outcome
  | [] => leave history typed
  | turn :: rest =>
    (p.logged turn.records ++ ⟨turn.shown, ""⟩).before <|
      match turn.reading with
      | .ended => leave history typed
      | .failed reason => .ofError ("Readline err: " ++ reason)
      | .aborted outcome => outcome
      | .line line =>
        match p.step line with
        | (some p', output) => output.before (p'.answerAll history (keep typed line) rest)
        | (none, output) => output.before (leave history (keep typed line))

/-- Looks for the lines of earlier runs. -/
def restore (p : Program) : Option History → Output
  | some h => if h.readable then {} else p.logged (Trace.ofMissing h.path)
  | none => {}

/-- Answers the lines of a whole input. -/
def interact (p : Program) (editor : Except String Editor) (input : String) : Outcome :=
  match editor with
  | .error e => .ofError e
  | .ok editor =>
    (p.restore editor.history).before (p.answerAll editor.history [] (editor.turns prompt input))

/-- What the arguments and the environment lead to. -/
inductive Start where
  /-- The program has done its work. -/
  | finished (outcome : Outcome)
  /-- The program goes on with the lines of its input. -/
  | interactive (program : Program)

/-- Starts the program with its arguments and the level of logging that the environment names. -/
def startOn (host : Host) (arguments : List String) (logLevel : Option String) : Start :=
  match host.readOptions arguments with
  | .error outcome => .finished outcome
  | .ok o =>
    match o.window.check with
    | .error e => .finished (.ofError e.message)
    | .ok _ =>
      let level := .chooseBy host.level? o.verbose logLevel
      let p : Program := { canvas := o.canvas, level, session := .new o.window o.glyph }
      if o.words.isEmpty then .interactive p else .finished (p.oneShot host.thread o.words)

/-- Runs the program on a whole input. -/
def runOn (host : Host) (arguments : List String) (logLevel : Option String) (input : String) :
    Outcome :=
  match startOn host arguments logLevel with
  | .finished outcome => outcome
  | .interactive p => p.interact host.editor input

/-- Runs the program on the standard host. -/
def run : List String → Option String → String → Outcome := runOn .standard

end Program

end CurvePlot
