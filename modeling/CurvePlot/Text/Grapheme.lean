import CurvePlot.Text.Grapheme.Kind

/-! Grapheme clusters: the characters of a text grouped into what a reader takes for one character.

Whether a character joins the cluster before it depends on that cluster alone (`joins`): every pair,
pile or chain of characters that the rules look back at lies in one cluster. -/

namespace CurvePlot.Text.Grapheme

/-- Whether a picture that follows a joiner continues what stands before the joiner: a picture with
any number of marks. -/
def endsInPictograph (before : List Char) : Bool :=
  (before.dropWhile (kind · = .extend)).head?.any (kind · = .pictograph)

/-- Whether a character may stand between the consonants of a pile: a mark, a linker or a joiner,
but not the zero width non-joiner. -/
def staysInPile (c : Char) : Bool := (kind c = .extend || kind c = .joiner) && c ≠ '\u200c'

/-- Whether a consonant is piled onto the one before it, with a linker somewhere between them. -/
def endsInLinkedConsonant (before : List Char) : Bool :=
  (before.takeWhile staysInPile).any isLinker &&
    (before.dropWhile staysInPile).head?.any (kind · = .consonant)

/-- Whether `c` joins the cluster of the characters `before`, of which the last one comes first. -/
def joins (before : List Char) (c : Char) : Bool :=
  match before with
  | [] => true
  | b :: earlier =>
    match kind b, kind c with
    | .control, _ => b = '\r' && c = '\n'
    | _, .control => false
    | .lead, .lead | .lead, .vowel | .lead, .openSyllable | .lead, .closedSyllable => true
    | .openSyllable, .vowel | .openSyllable, .tail | .vowel, .vowel | .vowel, .tail => true
    | .closedSyllable, .tail | .tail, .tail => true
    | _, .extend | _, .joiner | _, .spacing => true
    | .prepend, _ => true
    | .joiner, .pictograph => endsInPictograph earlier
    | .regional, .regional => (earlier.takeWhile (kind · = .regional)).length % 2 = 0
    | _, .consonant => endsInLinkedConsonant before
    | _, _ => false

/-- The clusters of a text behind the characters `before` of an unfinished one. -/
def clustersFrom (before : List Char) : List Char → List (List Char)
  | [] => if before = [] then [] else [before.reverse]
  | c :: cs =>
    if joins before c then clustersFrom (c :: before) cs
    else before.reverse :: clustersFrom [c] cs

/-- The clusters of a text. -/
def clusters (cs : List Char) : List (List Char) := clustersFrom [] cs

end CurvePlot.Text.Grapheme
