import CurvePlot.Numeral
import CurvePlot.Token

/-! Splitting a text into tokens.

`Lexeme.read` takes the longest token from the front of a text that does not start with a blank.
`Token.stream` alternates between that and skipping blanks, and ends with the token for the end of
the text or with an error. `Token.tokenize` is the stream of a whole text, if it has no error.

* `Lexeme.read_append`: a token and what is left of a text make up the text. -/

namespace CurvePlot

/-- The outcome of reading one token. -/
inductive Lexeme where
  /-- The text is over. -/
  | finished
  /-- A token, its characters and the text behind it. -/
  | token (kind : Token.Kind) (text rest : List Char)
  /-- A number that breaks off or is too large. -/
  | malformed
  /-- A character that starts no token. -/
  | unexpected (ch : Char)

namespace Lexeme

/-- Reads the longest token at the front of a text. -/
def read : List Char → Lexeme
  | [] => .finished
  | c :: cs =>
    if c.isAlpha then
      let name := c :: cs.takeWhile Char.isAlphanum
      .token (.ident (String.ofList name)) name (cs.dropWhile Char.isAlphanum)
    else
      match Numeral.scan (c :: cs) with
      | .literal d text rest =>
        if d.toFloat.isFinite then .token (.number d.toFloat) text rest else .malformed
      | .broken => .malformed
      | .absent =>
        match Token.Kind.ofChar? c with
        | some kind => .token kind [c] cs
        | none => .unexpected c

variable {cs text rest : List Char} {kind : Token.Kind}

theorem read_append (h : read cs = .token kind text rest) : text ++ rest = cs := by
  cases cs with
  | nil => cases h
  | cons c cs =>
    simp only [read] at h
    split at h
    · cases h
      rw [List.cons_append, List.takeWhile_append_dropWhile]
    · split at h
      · next hs =>
        split at h
        · cases h; exact Numeral.scan_append hs
        · cases h
      · cases h
      · split at h
        · cases h; rfl
        · cases h

theorem read_ne_nil (h : read cs = .token kind text rest) : text ≠ [] := by
  cases cs with
  | nil => cases h
  | cons c cs =>
    simp only [read] at h
    split at h
    · cases h; exact List.cons_ne_nil _ _
    · split at h
      · next hs =>
        split at h
        · cases h; exact Numeral.scan_ne_nil hs
        · cases h
      · cases h
      · split at h
        · cases h; exact List.cons_ne_nil _ _
        · cases h

/-- Reading goes on with a shorter text. -/
theorem read_length (h : read cs = .token kind text rest) : rest.length < cs.length := by
  have := List.length_pos_iff.mpr (read_ne_nil h)
  rw [← read_append h, List.length_append]
  omega

end Lexeme

namespace Token

/-- The characters that may stand between tokens. -/
def isBlank (c : Char) : Bool := c = ' ' || c = '\n' || c = '\r' || c = '\t'

/-- The tokens of the text `cs`, which starts at position `start`, up to the end or an error. -/
def stream (start : Nat) (cs : List Char) : List (Except LexError Token) :=
  let offset := start + (cs.takeWhile isBlank).length
  match _h : Lexeme.read (cs.dropWhile isBlank) with
  | .finished => [.ok ⟨.eof, offset⟩]
  | .token kind text rest => .ok ⟨kind, offset⟩ :: stream (offset + text.length) rest
  | .malformed => [.error (.malformedNumber offset)]
  | .unexpected ch => [.error (.unexpectedCharacter offset ch)]
termination_by cs.length
decreasing_by
  have := Lexeme.read_length _h
  have := (List.dropWhile_sublist (l := cs) isBlank).length_le
  omega

/-- The tokens of a text with the one for its end, or the first error. -/
def tokenize (s : String) : Except LexError (List Token) := (stream 0 s.toList).mapM id

end Token

end CurvePlot
