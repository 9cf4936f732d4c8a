import CurvePlot.Log
import CurvePlot.Options
import CurvePlot.Program.Trace
import CurvePlot.Text.Backspace

/-! What a program is given by libraries and by the system that it runs on.

Libraries read the arguments, ask for the lines and know the levels of logging by their names. The
program has only their answers, which a `Host` holds for all arguments, inputs and names.
`Host.standard` is one without a terminal and without lines of earlier runs. -/

namespace CurvePlot

/-- Text for the two output streams. -/
structure Output where
  out : String := ""
  err : String := ""
deriving DecidableEq, Repr

def Output.append (a b : Output) : Output := ⟨a.out ++ b.out, a.err ++ b.err⟩

instance : Append Output := ⟨Output.append⟩

/-- What a finished run leaves behind. -/
structure Outcome where
  code : UInt32
  output : Output
deriving DecidableEq, Repr

/-- A run that ends so after it has written something. -/
def Output.before (o : Output) (x : Outcome) : Outcome := ⟨x.code, o ++ x.output⟩

/-- The end of a run with an error. -/
def Outcome.ofError (message : String) : Outcome :=
  ⟨1, ⟨"", "Error: " ++ Text.quote message ++ "\n"⟩⟩

/-- What asking for a line ends with. -/
inductive Reading where
  | line (text : String)
  /-- There are no more lines. -/
  | ended
  /-- No line can be had, and why. -/
  | failed (reason : String)
  /-- The run is over. -/
  | aborted (outcome : Outcome)
deriving DecidableEq, Repr

/-- One request for a line. -/
structure Turn where
  /-- What is logged meanwhile. -/
  records : List Log.Record
  /-- What is shown on the terminal meanwhile. -/
  shown : String
  reading : Reading

/-- The file that lines are kept in for later runs. -/
structure History where
  path : String
  /-- Whether the lines of earlier runs can be had from it. -/
  readable : Bool
  /-- Why the lines of a run cannot be added to it, if they cannot. -/
  refusal : List String → Option String

/-- Where lines come from. -/
structure Editor where
  /-- The requests, with the same prompt, that a whole input answers. -/
  turns : (prompt input : String) → List Turn
  /-- Without a home directory there is none. -/
  history : Option History

/-- What a program is given. -/
structure Host where
  /-- The options that the arguments stand for, or how the run ends for lack of them. -/
  readOptions : List String → Except Outcome Options
  /-- The level of logging with the given name. -/
  level? : String → Option Log.Level
  /-- Where lines come from, or why there are none. -/
  editor : Except String Editor
  /-- The number of the main thread. -/
  thread : Nat

namespace Host

/-- The status of a run that ends with reading its arguments. -/
def status : OptionsError → UInt32
  | .help | .version => 0
  | .badValue | .repeated | .missingValue | .unneededValue => 2

/-- A line without its end, which may be a line feed with or without a carriage return. -/
def chomp (line : List Char) : List Char :=
  match line.reverse with
  | '\n' :: '\r' :: cs => cs.reverse
  | '\n' :: cs => cs.reverse
  | cs => cs.reverse

/-- A line of input without its end and after its backspaces. A line in which these cut a character
cannot be used. -/
def reading (line : List Char) : Reading :=
  match Text.erase (chomp line) with
  | some cs => .line (String.ofList cs)
  | none => .aborted ⟨101, {}⟩

/-- The lines of a text with their ends. -/
def lines : List Char → List (List Char)
  | [] => []
  | c :: cs =>
    if c = '\n' then [c] :: lines cs
    else
      match lines cs with
      | [] => [[c]]
      | line :: rest => (c :: line) :: rest

/-- Requests without a terminal are logged, and that at the end of the input too. -/
def turns (_prompt input : String) : List Turn :=
  ((lines input.toList).map reading ++ [Reading.ended]).map fun r => ⟨Trace.ofReading, "", r⟩

/-- A host without a terminal and without lines of earlier runs. The number of the main thread is up to
the system, and a small one where little else runs. -/
def standard (thread : Nat := 4) : Host where
  readOptions arguments := (Options.read arguments).mapError fun e => ⟨status e, {}⟩
  level? := Log.Level.ofName?
  editor := .ok { turns, history := none }
  thread

end Host

end CurvePlot
