import CurvePlot.Numeral
import CurvePlot.Text.Blank
import CurvePlot.Window

/-! Commands of a session: lines that start with a colon. -/

namespace CurvePlot

/-- Curves are counted from zero here, and from one in the text of a command. -/
inductive Command where
  | range (window : Window)
  | hide (index : Nat)
  | unhide (index : Nat)
  | highlight (index : Option Nat)
  | quit
deriving DecidableEq

/-- Why a line that starts with a colon is no command. -/
inductive CommandError where
  | missingNumber
  | badNumber (word : String)
  | missingBound
  | badBound (word : String)
  | badRange (error : RangeError)
  | unknown (name : String)
  | missingName
  | tooManyArguments (text : String)
deriving DecidableEq

def CommandError.message : CommandError → String
  | missingNumber => "missing function number"
  | badNumber word => "bad function number '" ++ word ++ "'"
  | missingBound => "usage: :range FROM TO"
  | badBound word => "bad range bound '" ++ word ++ "'"
  | badRange error => error.message
  | unknown name => "unknown command ':" ++ name ++ "'"
  | missingName => "missing command after ':'"
  | tooManyArguments text => "too many arguments for ':" ++ text ++ "'"

namespace Command

/-- The greatest number that a curve can have. -/
def maxNumber : Nat := 1 <<< 64 - 1

/-- The curve with the number in the first word, and the other words. -/
def takeIndex : List String → Except CommandError (Nat × List String)
  | [] => .error .missingNumber
  | word :: words =>
    match Numeral.readNat maxNumber word with
    | some (n + 1) => .ok (n, words)
    | _ => .error (.badNumber word)

/-- The finite number in the first word, and the other words. -/
def takeBound : List String → Except CommandError (Float × List String)
  | [] => .error .missingBound
  | word :: words =>
    match (Numeral.readFloat word).filter Float.isFinite with
    | some v => .ok (v, words)
    | none => .error (.badBound word)

/-- The window in the first two words, and the other words. -/
def takeWindow (words : List String) : Except CommandError (Window × List String) := do
  let (left, words) ← takeBound words
  let (right, words) ← takeBound words
  let window : Window := ⟨left, right⟩
  window.check.mapError .badRange
  return (window, words)

/-- The command at the front of some words, and the words that it leaves. -/
def takeCommand : List String → Except CommandError (Command × List String)
  | [] => .error .missingName
  | "range" :: words => do
    let (window, words) ← takeWindow words
    return (.range window, words)
  | "hide" :: words => do
    let (index, words) ← takeIndex words
    return (.hide index, words)
  | "show" :: words => do
    let (index, words) ← takeIndex words
    return (.unhide index, words)
  | ["hl"] => .ok (.highlight none, [])
  | "hl" :: words => do
    let (index, words) ← takeIndex words
    return (.highlight (some index), words)
  | "quit" :: words | "q" :: words => .ok (.quit, words)
  | name :: _ => .error (.unknown name)

/-- Reads the text behind the colon. -/
def ofText (cs : List Char) : Except CommandError Command := do
  let (command, words) ← takeCommand ((Text.words cs).map String.ofList)
  if words.isEmpty then return command
  else throw (.tooManyArguments (String.ofList (Text.trim cs)))

/-- Reads a line, which is no command at all without a colon in front. -/
def parse? (line : String) : Option (Except CommandError Command) :=
  match Text.trim line.toList with
  | ':' :: cs => some (ofText cs)
  | _ => none

end Command

end CurvePlot
