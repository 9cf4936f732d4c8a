import CurvePlot.Expr
import CurvePlot.Expr.Error
import CurvePlot.Token.Lexer

/-! Reading an expression from its tokens.

The grammar, with operators of one line binding equally tightly and lower lines more tightly:

    expression := term { ( "+" | "-" ) term }
    term       := unary { ( "*" | "/" ) unary }
    unary      := "-" unary | power
    power      := primary [ "^" unary ]
    primary    := NUMBER | "x" | CONSTANT | FUNCTION "(" expression ")" | "(" expression ")"

The reader takes one token at a time. Its state holds, for the text outside all parentheses and for
each parenthesis that is open, the operators whose right operand is not complete yet (`Level`), and
whether an operand has just been completed (`Focus`). A binary operator first completes every
operand that it cannot cut into.

* `State.step` reads one token, `State.finish` the end of the input.
* `State.depth` counts the operators and parentheses that the next token would be nested in. A chain
  of equally tight operators counts with its length, since it makes the tree that much deeper.
* `Expr.ofTokens` reads a whole list, with or without a limit on that depth. -/

namespace CurvePlot.Parser

/-- The left part of a chain of operators of one tightness, and how many of them there are. -/
structure Chain where
  left : Option (Expr × BinOp) := none
  length : Nat := 0
deriving DecidableEq

namespace Chain

/-- The chain closed by its last operand. -/
def apply (c : Chain) (a : Expr) : Expr :=
  match c.left with
  | none => a
  | some (l, op) => .binary op l a

/-- The chain closed by `a` and continued with one more operator. -/
def extend (c : Chain) (a : Expr) (op : BinOp) : Chain :=
  ⟨some (c.apply a, op), c.length + 1⟩

end Chain

/-- An operator that waits for an operand that no binary operator but `^` can extend. -/
inductive Pending where
  | neg
  | pow (base : Expr)
deriving DecidableEq

def Pending.apply (a : Expr) : Pending → Expr
  | neg => .neg a
  | pow base => .binary .pow base a

/-- What waits for its right operand since the innermost open parenthesis or the last comma. -/
structure Level where
  sum : Chain := {}
  product : Chain := {}
  /-- The innermost operator comes first. -/
  pending : List Pending := []
deriving DecidableEq

namespace Level

/-- The operand of a multiplication that `a` completes. -/
def factor (l : Level) (a : Expr) : Expr := l.pending.foldl Pending.apply a

/-- The operand of an addition that `a` completes. -/
def term (l : Level) (a : Expr) : Expr := l.product.apply (l.factor a)

/-- The whole expression that `a` completes. -/
def expression (l : Level) (a : Expr) : Expr := l.sum.apply (l.term a)

/-- Goes on behind `a` with an addition or subtraction. -/
def add (l : Level) (a : Expr) (op : BinOp) : Level := { sum := l.sum.extend (l.term a) op }

/-- Goes on behind `a` with a multiplication or division. -/
def mul (l : Level) (a : Expr) (op : BinOp) : Level :=
  { sum := l.sum, product := l.product.extend (l.factor a) op }

/-- Goes on with a power or a minus sign. -/
def wait (l : Level) (p : Pending) : Level := { l with pending := p :: l.pending }

def depth (l : Level) : Nat := l.sum.length + l.product.length + l.pending.length

end Level

/-- Why a parenthesis was opened: to group, or for the arguments of a function, of which some may
have been read already. -/
inductive Opener where
  | group
  | call (f : Func) (offset : Nat) (before : Nat)
deriving DecidableEq

/-- An open parenthesis, and what waits outside it. -/
structure Frame where
  opener : Opener
  outer : Level
deriving DecidableEq

/-- What the reader stands at. -/
inductive Focus where
  /-- An operand has to follow, or, if `closable`, the end of a call without arguments. -/
  | operand (closable : Bool)
  /-- The name of a function was read, and its parenthesis has to follow. -/
  | name (f : Func) (offset : Nat)
  /-- An operand was read. -/
  | complete (a : Expr)
deriving DecidableEq

/-- What the reader knows of the tokens so far. -/
structure State where
  focus : Focus := .operand false
  level : Level := {}
  /-- The open parentheses, the innermost first. -/
  frames : List Frame := []
  /-- The position of the last token. -/
  last : Nat := 0
deriving DecidableEq

namespace State

/-- The number of operators and parentheses around the next token. -/
def depth (s : State) : Nat :=
  s.level.depth + s.frames.foldr (fun f d => 1 + f.outer.depth + d) 0

/-- What has to follow, where only one thing can. -/
def expected (s : State) : Expected :=
  match s.focus with
  | .operand _ => .operand
  | .name .. => .openParen
  | .complete _ =>
    match s.frames with
    | ⟨.call .., _⟩ :: _ => .commaOrCloseParen
    | _ => .closeParen

/-- The error for a token that cannot follow. -/
def unexpected (s : State) (t : Token) : ParseError :=
  match s.focus, s.frames with
  | .complete _, [] => .trailingInput t.offset
  | _, _ => .unexpectedToken t.offset s.expected t.kind

/-- Goes on after an operand. -/
def complete (s : State) (a : Expr) : State := { s with focus := .complete a }

/-- Goes on to an operand, unless it would be nested too deeply. -/
def await (s : State) (limit : Option Nat) (offset : Nat) (closable : Bool) :
    Except ParseError State :=
  if limit.all (s.depth ≤ ·) then .ok { s with focus := .operand closable }
  else .error (.tooDeep offset)

/-- Goes on inside a parenthesis. -/
def enter (s : State) (o : Opener) : State :=
  { s with level := {}, frames := ⟨o, s.level⟩ :: s.frames }

/-- Leaves the innermost parenthesis, which the operand `a` has just completed. -/
def close (s : State) (t : Token) (a : Expr) : Except ParseError State :=
  match s.frames with
  | [] => .error (s.unexpected t)
  | ⟨.group, outer⟩ :: frames =>
    .ok { s with focus := .complete (s.level.expression a), level := outer, frames }
  | ⟨.call f offset before, outer⟩ :: frames =>
    if before = 0 then
      .ok { s with focus := .complete (.call f (s.level.expression a)), level := outer, frames }
    else .error (.argumentCountMismatch offset (before + 1))

/-- Goes on to the next argument of a call. -/
def nextArgument (s : State) (t : Token) : Except ParseError State :=
  match s.frames with
  | ⟨.call f offset before, outer⟩ :: frames =>
    .ok { s with
      focus := .operand false
      level := {}
      frames := ⟨.call f offset (before + 1), outer⟩ :: frames }
  | _ => .error (s.unexpected t)

/-- Reads a token where an operand has to follow. -/
def readOperand (s : State) (limit : Option Nat) (t : Token) (closable : Bool) :
    Except ParseError State :=
  match t.kind with
  | .number v => .ok (s.complete (.number v))
  | .ident name =>
    match Name.resolve name with
    | some (.operand a) => .ok (s.complete a)
    | some (.function f) => .ok { s with focus := .name f t.offset }
    | none => .error (.unknownIdentifier t.offset name)
  | .lparen => (s.enter .group).await limit t.offset false
  | .minus => { s with level := s.level.wait .neg }.await limit t.offset false
  | .rparen =>
    match closable, s.frames with
    | true, ⟨.call _ offset before, _⟩ :: _ => .error (.argumentCountMismatch offset before)
    | _, _ => .error (s.unexpected t)
  | _ => .error (s.unexpected t)

/-- Reads a token behind an operand. -/
def readOperator (s : State) (limit : Option Nat) (t : Token) (a : Expr) :
    Except ParseError State :=
  match t.kind with
  | .plus => { s with level := s.level.add a .add }.await limit t.offset false
  | .minus => { s with level := s.level.add a .sub }.await limit t.offset false
  | .star => { s with level := s.level.mul a .mul }.await limit t.offset false
  | .slash => { s with level := s.level.mul a .div }.await limit t.offset false
  | .caret => { s with level := s.level.wait (.pow a) }.await limit t.offset false
  | .rparen => s.close t a
  | .comma => s.nextArgument t
  | _ => .error (s.unexpected t)

/-- Reads one token, whose position is not noted yet. -/
def read (limit : Option Nat) (s : State) (t : Token) : Except ParseError State :=
  match s.focus with
  | .operand closable => s.readOperand limit t closable
  | .name f offset =>
    match t.kind with
    | .lparen => (s.enter (.call f offset 0)).await limit offset true
    | _ => .error (s.unexpected t)
  | .complete a => s.readOperator limit t a

/-- Reads one token. -/
def step (limit : Option Nat) (s : State) (t : Token) : Except ParseError State :=
  (s.read limit t).map fun s' => { s' with last := t.offset }

/-- Reads the end of the input at `offset`. -/
def finish (s : State) (offset : Nat) : Except ParseError Expr :=
  match s.focus, s.frames with
  | .complete a, [] => .ok (s.level.expression a)
  | _, _ => .error (.unexpectedToken offset s.expected .eof)

/-- Reads tokens up to the first one for the end of the input. Without one, the input ends at its
last token. -/
def run (limit : Option Nat) (s : State) : List Token → Except ParseError Expr
  | [] => s.finish s.last
  | t :: ts => if t.kind = .eof then s.finish t.offset else do (← s.step limit t).run limit ts

end State

end CurvePlot.Parser

namespace CurvePlot.Expr

/-- The most operators and parentheses that may enclose a token. -/
def maxDepth : Nat := 256

/-- Reads the tokens before the first one for the end of the input. No more than `limit` operators
and parentheses may enclose a token, if there is a limit. -/
def ofTokens (limit : Option Nat) (ts : List Token) : Except ParseError Expr :=
  match ts with
  | [] | ⟨.eof, _⟩ :: _ => .error .emptyExpression
  | ts => ({} : Parser.State).run limit ts

/-- Reads an expression from its tokens. -/
def parse (ts : List Token) : Except ParseError Expr := ofTokens (some maxDepth) ts

/-- Reads an expression from its text. -/
def ofText (s : String) : Except ReadError Expr := do
  let ts ← (Token.tokenize s).mapError .lex
  (parse ts).mapError .parse

end CurvePlot.Expr
