import CurvePlot.Text.Range

/-! White space in the sense of the `White_Space` property of characters, which is wider than the
blanks between tokens: trimming a text and cutting it into words. -/

namespace CurvePlot.Text

/-- The ranges of the property. -/
def spaceRanges : List (Nat × Nat) :=
  [(0x9, 0xD), (0x20, 0x20), (0x85, 0x85), (0xA0, 0xA0), (0x1680, 0x1680), (0x2000, 0x200A),
    (0x2028, 0x2029), (0x202F, 0x202F), (0x205F, 0x205F), (0x3000, 0x3000)]

def isSpace (c : Char) : Bool := inRanges c spaceRanges

/-- Drops the white space at both ends. -/
def trim (cs : List Char) : List Char :=
  ((cs.dropWhile isSpace).reverse.dropWhile isSpace).reverse

/-- The runs of other characters between white space. -/
def words : List Char → List (List Char)
  | [] => []
  | c :: cs =>
    if isSpace c then words cs
    else
      match cs, words cs with
      | c' :: _, w :: ws => if isSpace c' then [c] :: w :: ws else (c :: w) :: ws
      | _, ws => [c] :: ws

end CurvePlot.Text
