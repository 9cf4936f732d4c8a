/-! A cursor over a list of items that can go back.

Items move from `rest` into `buffer` only when they are looked at, and leave the buffer for good
when everything accepted so far is dropped. The cursor counts accepted items: it stands behind the
last one, or one place further when the scanner ran off the end of what can be buffered.

* `Scanner.view` is what was accepted since the last drop, `Scanner.unread` what follows.
* `Scanner.next` accepts one item, `Scanner.acceptIf` one with a property, and `Scanner.skipWhile`
  the longest run of them. -/

namespace CurvePlot

structure Scanner (α : Type) where
  /-- The number of items dropped so far. -/
  offset : Nat := 0
  buffer : List α := []
  rest : List α
  /-- The number of accepted items, or one more than the buffer holds. -/
  cursor : Nat := 0
deriving Repr

namespace Scanner

variable {α : Type}

def ofList (items : List α) : Scanner α := { rest := items }

/-- The place of the last accepted item in the buffer, `-1` if there is none. -/
def pos (s : Scanner α) : Int := s.cursor - 1

/-- Moves the cursor to a place of the buffer, to `-1` before it or to the one behind it. -/
def setPos (s : Scanner α) (pos : Int) : Bool × Scanner α :=
  if pos < -1 ∨ s.buffer.length < pos then (false, s)
  else (true, { s with cursor := (pos + 1).toNat })

/-- The last accepted item. -/
def curr (s : Scanner α) : Option α :=
  if s.cursor = 0 then none else s.buffer[s.cursor - 1]?

/-- The items accepted since the last drop. -/
def view (s : Scanner α) : List α := s.buffer.take s.cursor

/-- The items that follow the cursor, buffered or not. -/
def unread (s : Scanner α) : List α := (s.buffer ++ s.rest).drop s.cursor

/-- Buffers the next `n` items behind the cursor, or all that are left. -/
def lookAhead (s : Scanner α) (n : Nat) : Scanner α :=
  let missing := s.cursor + n - s.buffer.length
  { s with buffer := s.buffer ++ s.rest.take missing, rest := s.rest.drop missing }

/-- Accepts the next item. At the end the cursor stands one place behind the buffer. -/
def next (s : Scanner α) : Option α × Scanner α :=
  let s := s.lookAhead 1
  let s := { s with cursor := min (s.cursor + 1) (s.buffer.length + 1) }
  (s.curr, s)

/-- The next item, without accepting it. -/
def peek (s : Scanner α) : Option α × Scanner α := (s.next.1, s.lookAhead 1)

/-- Drops the accepted items. -/
def ignore (s : Scanner α) : Scanner α :=
  { s with offset := s.offset + s.view.length, buffer := s.buffer.drop s.cursor, cursor := 0 }

/-- Drops the accepted items and returns them. -/
def extract (s : Scanner α) : List α × Scanner α := (s.view, s.ignore)

/-- Accepts the next item if it has the property `p`. -/
def acceptIf (p : α → Bool) (s : Scanner α) : Option α × Scanner α :=
  match s.next with
  | (some a, s') => if p a then (some a, s') else (none, s.lookAhead 1)
  | (none, _) => (none, s.lookAhead 1)

def accept [BEq α] (a : α) (s : Scanner α) : Option α × Scanner α := s.acceptIf (· == a)

def acceptAny [BEq α] (items : List α) (s : Scanner α) : Option α × Scanner α :=
  s.acceptIf (items.contains ·)

/-- Accepts the longest run of items with the property `p`, having looked at the one behind it.
The result tells whether there was any. -/
def skipWhile (p : α → Bool) (s : Scanner α) : Bool × Scanner α :=
  let n := (s.unread.takeWhile p).length
  let s := s.lookAhead (n + 1)
  (n != 0, { s with cursor := s.cursor + n })

def skipAll [BEq α] (items : List α) (s : Scanner α) : Bool × Scanner α :=
  s.skipWhile (items.contains ·)

end Scanner

end CurvePlot
