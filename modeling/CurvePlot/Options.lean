import CurvePlot.Canvas
import CurvePlot.Numeral

/-! The options of the command line.

Options come before the words of the expression, which start with the first word that is no option
and go on to the end; `--` starts them too. A word that starts with a hyphen but names no option
is a word of the expression, or the value of the option before it. The value of an option that
stands in a word of its own is looked at when the next option or the expression starts. -/

namespace CurvePlot

/-- The options of the program, and the words of the expression. -/
structure Options where
  window : Window := ⟨-10, 10⟩
  width : Nat := 72
  height : Nat := 20
  unicodeMinus : Bool := false
  /-- How often more logging was asked for. -/
  verbose : Nat := 0
  words : List String := []
deriving DecidableEq

/-- Why the arguments give no options to run with. -/
inductive OptionsError where
  /-- A value is not of the kind that the option takes. -/
  | badValue
  /-- An option that may come once came again. -/
  | repeated
  /-- An option lacks its value. -/
  | missingValue
  /-- An option was given a value and takes none. -/
  | unneededValue
  /-- The help was asked for. -/
  | help
  /-- The version was asked for. -/
  | version
deriving DecidableEq, Repr

namespace Options

def glyph (o : Options) : Glyph := if o.unicodeMinus then .ofChar Glyph.unicodeMinus else .hyphen

/-- Pictures on the terminal are in color. -/
def canvas (o : Options) : Canvas := ⟨o.width, o.height, true⟩

/-- The options that take a value. -/
inductive Setting where
  | left
  | right
  | width
  | height
deriving DecidableEq, Repr

/-- The options that take none. -/
inductive Flag where
  | unicodeMinus
  | verbose
  | help
  | version
deriving DecidableEq, Repr

def Setting.ofName? : List Char → Option Setting
  | ['f', 'r', 'o', 'm'] => some left
  | ['t', 'o'] => some right
  | ['w', 'i', 'd', 't', 'h'] => some width
  | ['h', 'e', 'i', 'g', 'h', 't'] => some height
  | _ => none

def Flag.ofName? (name : List Char) : Option Flag :=
  if name = "unicode-minus".toList then some unicodeMinus
  else if name = "verbose".toList then some verbose
  else if name = "help".toList then some help
  else if name = "version".toList then some version
  else none

def Flag.ofLetter? : Char → Option Flag
  | 'v' => some verbose
  | 'h' => some help
  | 'V' => some version
  | _ => none

/-- A number of cells within its bounds. -/
def readSize (least : Nat) (s : String) : Option Nat :=
  (Numeral.readNat 65535 s).filter fun n => least ≤ n

/-- The options read so far. -/
structure Partial where
  options : Options := {}
  /-- The options that may come once and have come. -/
  settings : List Setting := []
  minusGiven : Bool := false
  /-- The option whose value is not looked at yet, with its value if it has one. -/
  pending : Option (Setting × Option String) := none

namespace Partial

/-- Gives an option its value. -/
def set (p : Partial) (key : Setting) (value : String) : Except OptionsError Partial :=
  if key ∈ p.settings then .error .repeated
  else
    let o := p.options
    let changed : Option Options :=
      match key with
      | .left => (Numeral.readFloat value).map fun v => { o with window := ⟨v, o.window.right⟩ }
      | .right => (Numeral.readFloat value).map fun v => { o with window := ⟨o.window.left, v⟩ }
      | .width => (readSize 8 value).map fun n => { o with width := n }
      | .height => (readSize 4 value).map fun n => { o with height := n }
    match changed with
    | some options => .ok { p with options, settings := key :: p.settings }
    | none => .error .badValue

/-- Looks at the value of the last option. -/
def resolve (p : Partial) : Except OptionsError Partial :=
  match p.pending with
  | none => .ok p
  | some (_, none) => .error .missingValue
  | some (key, some value) => { p with pending := none }.set key value

/-- Reads an option without a value. -/
def raise (p : Partial) (f : Flag) : Except OptionsError Partial := do
  let p ← p.resolve
  match f with
  | .unicodeMinus =>
    if p.minusGiven then .error .repeated
    else return { p with options := { p.options with unicodeMinus := true }, minusGiven := true }
  | .verbose =>
    let verbose := min (p.options.verbose + 1) 255
    return { p with options := { p.options with verbose } }
  | .help => .error .help
  | .version => .error .version

/-- Takes the remaining words for the expression. -/
def finish (p : Partial) (words : List String) : Except OptionsError Options := do
  return { (← p.resolve).options with words }

end Partial

/-- What a word of the command line is by its form. -/
inductive Form where
  | separator
  | setting (key : Setting) (value : Option String)
  | flag (f : Flag) (value : Option String)
  | flags (fs : List Flag)
  | plain
deriving DecidableEq, Repr

/-- The form of a word. Letters behind a single hyphen are options only if all of them are. -/
def Form.ofWord (word : String) : Form :=
  match word.toList with
  | ['-', '-'] => .separator
  | '-' :: '-' :: cs =>
    let name := cs.takeWhile (· != '=')
    let value :=
      match cs.dropWhile (· != '=') with
      | _ :: value => some (String.ofList value)
      | [] => none
    match Setting.ofName? name, Flag.ofName? name with
    | some key, _ => .setting key value
    | none, some f => .flag f value
    | none, none => .plain
  | '-' :: c :: cs =>
    match (c :: cs).mapM Flag.ofLetter? with
    | some fs => .flags fs
    | none => .plain
  | _ => .plain

/-- Reads the arguments, of which `p` was read already. -/
def readWords (p : Partial) : List String → Except OptionsError Options
  | [] => p.finish []
  | word :: words =>
    match Form.ofWord word with
    | .separator => p.finish words
    | .setting key (some value) => do readWords (← (← p.resolve).set key value) words
    | .setting key none => do readWords { (← p.resolve) with pending := some (key, none) } words
    | .flag f none => do readWords (← p.raise f) words
    | .flag _ (some _) => .error .unneededValue
    | .flags fs => do readWords (← fs.foldlM Partial.raise p) words
    | .plain =>
      match p.pending with
      | some (key, none) => readWords { p with pending := some (key, some word) } words
      | _ => p.finish (word :: words)

/-- Reads the arguments of the program, as the standard host does. -/
def read (arguments : List String) : Except OptionsError Options := readWords {} arguments

end Options

end CurvePlot
