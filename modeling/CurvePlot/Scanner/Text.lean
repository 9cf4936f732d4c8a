import CurvePlot.Scanner
import CurvePlot.Token.Lexer

/-! Scanning text: blanks, numbers and identifiers. -/

namespace CurvePlot.Scanner

def extractString (s : Scanner Char) : String × Scanner Char :=
  (String.ofList s.view, s.ignore)

/-- Drops blanks, and whatever was accepted before them. -/
def skipBlanks (s : Scanner Char) : Bool × Scanner Char :=
  let (skipped, s) := s.skipWhile Token.isBlank
  (skipped, s.ignore)

/-- Text that was taken for a number: a whole one, or one that breaks off. -/
abbrev Scanned := Except String String

/-- Takes the accepted text for a number, after an optional power of ten. -/
def scanPower (s : Scanner Char) : Scanned × Scanner Char :=
  let (mark, s) := s.acceptAny ['e', 'E']
  if mark.isNone then (.ok s.extractString.1, s.ignore)
  else
    let (_, s) := s.acceptAny ['+', '-']
    let (digits, s) := s.skipWhile Char.isDigit
    (if digits then .ok s.extractString.1 else .error s.extractString.1, s.ignore)

/-- Takes a number together with what was accepted before it, unless none starts here. -/
def scanNumber (s : Scanner Char) : Option Scanned × Scanner Char :=
  let (whole, s₁) := s.skipWhile Char.isDigit
  let (point, s₂) := s₁.accept '.'
  if point.isSome then
    let (fraction, s₃) := s₂.skipWhile Char.isDigit
    if fraction then s₃.scanPower.map some id
    else if whole then (some (.error s₃.extractString.1), s₃.ignore)
    else (none, { s₃ with cursor := s.cursor })
  else if whole then s₂.scanPower.map some id
  else (none, s₂)

/-- Takes a letter and the letters and digits behind it, with what was accepted before. -/
def scanIdentifier (s : Scanner Char) : Option String × Scanner Char :=
  let (first, s) := s.peek
  if first.any Char.isAlpha then
    let (_, s) := s.skipWhile Char.isAlphanum
    (some s.extractString.1, s.ignore)
  else (none, s)

end CurvePlot.Scanner
