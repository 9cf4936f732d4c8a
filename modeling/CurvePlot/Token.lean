import CurvePlot.Decimal.Layout

/-! Tokens of the expression language, and why a text may fail to split into them. Positions count
characters from the start of the text. -/

namespace CurvePlot

/-- What a token stands for. -/
inductive Token.Kind where
  | number (value : Float)
  | ident (name : String)
  | plus
  | minus
  | star
  | slash
  | caret
  | lparen
  | rparen
  | comma
  | eof
deriving DecidableEq

/-- A token and the position of its first character. -/
structure Token where
  kind : Token.Kind
  offset : Nat
deriving DecidableEq

namespace Token.Kind

/-- How messages name a token. -/
def describe : Kind → String
  | number v => "number " ++ String.ofList (Decimal.plain v)
  | ident name => "identifier '" ++ name ++ "'"
  | plus => "'+'"
  | minus => "'-'"
  | star => "'*'"
  | slash => "'/'"
  | caret => "'^'"
  | lparen => "'('"
  | rparen => "')'"
  | comma => "','"
  | eof => "end of input"

/-- The kind of the tokens that are one character long. -/
def ofChar? : Char → Option Kind
  | '+' => some plus
  | '-' => some minus
  | '*' => some star
  | '/' => some slash
  | '^' => some caret
  | '(' => some lparen
  | ')' => some rparen
  | ',' => some comma
  | _ => none

end Token.Kind

/-- Why no token could be read. -/
inductive LexError where
  | unexpectedCharacter (offset : Nat) (ch : Char)
  | malformedNumber (offset : Nat)
deriving DecidableEq, Repr

namespace LexError

def offset : LexError → Nat
  | unexpectedCharacter offset _ => offset
  | malformedNumber offset => offset

/-- The same error, `n` characters further on. -/
def shift (n : Nat) : LexError → LexError
  | unexpectedCharacter offset ch => unexpectedCharacter (n + offset) ch
  | malformedNumber offset => malformedNumber (n + offset)

def message : LexError → String
  | unexpectedCharacter offset ch =>
    "unexpected character '" ++ ch.toString ++ "' at position " ++ offset.repr
  | malformedNumber offset => "malformed number at position " ++ offset.repr

end LexError

end CurvePlot
