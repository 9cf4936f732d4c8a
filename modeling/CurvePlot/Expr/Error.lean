import CurvePlot.Token

/-! Why a list of tokens, or a text, is no expression. -/

namespace CurvePlot

/-- What the reader needs next, where only that will do. -/
inductive Expected where
  | operand
  | openParen
  | closeParen
  | commaOrCloseParen
deriving DecidableEq, Repr

def Expected.describe : Expected → String
  | operand => "an operand"
  | openParen => "'('"
  | closeParen => "')'"
  | commaOrCloseParen => "',' or ')'"

/-- Why a list of tokens is no expression. A call with the wrong number of arguments and one that
is nested too deeply are reported at the name of the function. -/
inductive ParseError where
  | emptyExpression
  | unexpectedToken (offset : Nat) (expected : Expected) (found : Token.Kind)
  | unknownIdentifier (offset : Nat) (name : String)
  | argumentCountMismatch (offset : Nat) (found : Nat)
  | trailingInput (offset : Nat)
  | tooDeep (offset : Nat)
deriving DecidableEq

namespace ParseError

/-- The position of the token at fault. -/
def offset : ParseError → Nat
  | emptyExpression => 0
  | unexpectedToken offset .. => offset
  | unknownIdentifier offset _ => offset
  | argumentCountMismatch offset _ => offset
  | trailingInput offset => offset
  | tooDeep offset => offset

def message : ParseError → String
  | emptyExpression => "empty expression"
  | unexpectedToken offset expected found =>
    "expected " ++ expected.describe ++ " but found " ++ found.describe ++ " at position " ++
      offset.repr
  | unknownIdentifier offset name =>
    "unknown identifier '" ++ name ++ "' at position " ++ offset.repr
  | argumentCountMismatch offset found =>
    "function at position " ++ offset.repr ++ " takes 1 argument, found " ++ found.repr
  | trailingInput offset => "unexpected input after the expression at position " ++ offset.repr
  | tooDeep offset => "expression nested too deeply at position " ++ offset.repr

end ParseError

/-- Why a text is no expression. -/
inductive ReadError where
  | lex (error : LexError)
  | parse (error : ParseError)
deriving DecidableEq

namespace ReadError

/-- The position of the fault, in characters. -/
def offset : ReadError → Nat
  | lex error => error.offset
  | parse error => error.offset

def message : ReadError → String
  | lex error => error.message
  | parse error => error.message

/-- The position of the fault in `source`, in bytes. A fault at the end of the text is at its
length. -/
def byteOffset (error : ReadError) (source : String) : Nat :=
  (String.ofList (source.toList.take error.offset)).utf8ByteSize

end ReadError

end CurvePlot
