/-! The minus sign that the user types and sees, in place of the hyphen of canonical texts.

Both directions replace one character by another, so that positions in the two texts are the
same. -/

namespace CurvePlot

/-- A choice of minus sign. It is the hyphen itself or no ASCII character, since all the others have
a meaning of their own. -/
structure Glyph where
  display : Char
  safe : display = '-' ∨ 128 ≤ display.toNat
deriving DecidableEq, Repr

namespace Glyph

/-- The minus sign of canonical texts. -/
def hyphen : Glyph := ⟨'-', .inl rfl⟩

/-- U+2212, the usual replacement of the hyphen. -/
def unicodeMinus : Char := '\u2212'

/-- Uses `c` as the minus sign. Every ASCII character gives the hyphen. -/
def ofChar (c : Char) : Glyph :=
  if h : c.toNat < 128 then hyphen else ⟨c, .inr (Nat.le_of_not_lt h)⟩

/-- The first candidate that can be shown and is not ASCII, else the hyphen. -/
def choose (candidates : List Char) (renders : Char → Bool) : Glyph :=
  match candidates.find? fun c => !(c.toNat < 128) && renders c with
  | some c => ofChar c
  | none => hyphen

/-- Replaces the minus sign by the hyphen. -/
def toCanonical (g : Glyph) (s : String) : String := s.map fun c => if c = g.display then '-' else c

/-- Replaces the hyphen by the minus sign. -/
def toDisplay (g : Glyph) (s : String) : String := s.map fun c => if c = '-' then g.display else c

end Glyph

/-- The current choice of minus sign, kept as one code point so that it changes in one step. -/
structure GlyphSetting where
  code : UInt32
deriving DecidableEq, Repr

namespace GlyphSetting

def ofGlyph (g : Glyph) : GlyphSetting := ⟨g.display.val⟩

/-- The current choice. A number that is no code point stands for the hyphen. -/
def load (s : GlyphSetting) : Glyph :=
  if h : s.code.isValidChar then .ofChar ⟨s.code, h⟩ else .hyphen

def store (_ : GlyphSetting) (g : Glyph) : GlyphSetting := ofGlyph g

end GlyphSetting

end CurvePlot
