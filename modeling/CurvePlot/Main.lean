import CurvePlot.Program

/-! The command line: arguments, environment and streams around `Program`. -/

namespace CurvePlot

/-- Writes a piece of output to the streams. -/
def Output.put (o : Output) : IO Unit := do
  let out ← IO.getStdout
  let err ← IO.getStderr
  err.putStr o.err
  out.putStr o.out
  out.flush

/-- Answers the lines of the standard input until it ends or the program is left, and gives the
status to end with. The prompt is shown on a terminal only. -/
partial def Program.loop (p : Program) (input : IO.FS.Stream) : IO UInt32 := do
  if ← input.isTty then Output.put ⟨prompt, ""⟩ else (p.logged Trace.ofReading).put
  let line ← input.getLine
  if line.isEmpty then return 0
  match Host.reading line.toList with
  | .line line =>
    match p.step line with
    | (some p, output) =>
      output.put
      p.loop input
    | (none, output) =>
      output.put
      return 0
  | .ended => return 0
  | .failed reason => finish (.ofError ("Readline err: " ++ reason))
  | .aborted outcome => finish outcome
where
  finish (outcome : Outcome) : IO UInt32 := do
    outcome.output.put
    return outcome.code

end CurvePlot

open CurvePlot in
def main (arguments : List String) : IO UInt32 := do
  let host := Host.standard (← IO.getTID).toNat
  match Program.startOn host arguments (← IO.getEnv "GRAFICAS_LOG") with
  | .finished outcome =>
    outcome.output.put
    return outcome.code
  | .interactive p => p.loop (← IO.getStdin)
