import CurvePlot.Text.Blank

/-! Log records and the level from which they are shown. -/

namespace CurvePlot.Log

/-- How much is logged. Records have one of the levels but `off`. -/
inductive Level where
  | off
  | error
  | warn
  | info
  | debug
  | trace
deriving DecidableEq, Repr

namespace Level

def all : List Level := [off, error, warn, info, debug, trace]

def name : Level → String
  | off => "OFF"
  | error => "ERROR"
  | warn => "WARN"
  | info => "INFO"
  | debug => "DEBUG"
  | trace => "TRACE"

/-- The place among the levels, quieter ones first. -/
def rank : Level → Nat
  | off => 0
  | error => 1
  | warn => 2
  | info => 3
  | debug => 4
  | trace => 5

/-- Whether a record of level `r` is shown. -/
def shows (l r : Level) : Bool := r.rank ≤ l.rank

/-- The level with the given name, in letters of any case. -/
def ofName? (s : String) : Option Level :=
  let key := s.toList.map Char.toUpper
  all.find? fun l => l.name.toList == key

/-- The level for so many requests to log more. Without any, the environment may name it, perhaps
between white space. -/
def chooseBy (named : String → Option Level) (verbose : Nat) (environment : Option String) : Level :=
  match verbose with
  | 0 => (environment.bind fun s => named (String.ofList (Text.trim s.toList))).getD warn
  | 1 => info
  | 2 => debug
  | _ => trace

/-- The level by the names that `ofName?` knows. -/
def choose : Nat → Option String → Level := chooseBy ofName?

end Level

structure Record where
  level : Level
  target : String
  message : String
deriving DecidableEq, Repr

/-- A record as a line, its level five columns wide. -/
def Record.line (r : Record) : String :=
  let name := r.level.name
  "[" ++ name ++ String.ofList (List.replicate (5 - name.length) ' ') ++ " " ++ r.target ++ "] " ++
    r.message ++ "\n"

/-- The lines of the records that are shown. -/
def lines (l : Level) (rs : List Record) : String :=
  String.join ((rs.filter fun r => l.shows r.level).map Record.line)

end CurvePlot.Log
