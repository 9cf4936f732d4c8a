import CurvePlot.Text.Grapheme

/-! Backspaces in lines that are not edited while they are typed: each takes back the grapheme
cluster before it.

The size of a cluster in bytes is kept in one byte. Of a larger one, a backspace takes back only as
many bytes from the end as its size leaves modulo 256, and the line cannot be used if that cuts a
character. -/

namespace CurvePlot.Text

def backspace : Char := '\x08'

/-- The size in bytes. -/
def byteSize (cs : List Char) : Nat := (String.ofList cs).utf8ByteSize

/-- A line so far. -/
structure Typed where
  /-- The characters that are left, the last one first. -/
  text : List Char := []
  /-- The sizes of the clusters that can be taken back, the last one first. -/
  sizes : List Nat := []

namespace Typed

/-- Drops the last `n` bytes, unless that cuts a character. The last character comes first. -/
def dropBytes : Nat → List Char → Option (List Char)
  | 0, cs => some cs
  | _, [] => some []
  | n, c :: cs => if c.utf8Size ≤ n then dropBytes (n - c.utf8Size) cs else none

/-- Adds a cluster, or takes one back. -/
def add (t : Typed) (cluster : List Char) : Option Typed :=
  if cluster = [backspace] then
    match t.sizes with
    | [] => some t
    | n :: sizes => do return { text := ← dropBytes n t.text, sizes }
  else
    some { text := cluster.reverse ++ t.text, sizes := byteSize cluster % 256 :: t.sizes }

end Typed

/-- What is left of a line after its backspaces. One with nothing before it has no effect. -/
def erase (cs : List Char) : Option (List Char) := do
  return (← (Grapheme.clusters cs).foldlM Typed.add {}).text.reverse

end CurvePlot.Text
