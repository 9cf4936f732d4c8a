import CurvePlot.Decimal

/-! Numbers written out.

A literal of the expression language is `digits[.digits]` or `.digits`, with an optional power of
ten; `Numeral.scan` takes one from the front of a text. Arguments of commands and options are
read more freely and have to be numbers as a whole: `readFloat` allows a sign, a decimal point
with digits on one side only, and the words for infinity and for what is no number; `readNat`
allows a plus sign.

* `scan_append`: a literal and what is left of a text make up the text. -/

namespace CurvePlot.Numeral

/-- The decimal with these digits on the two sides of its point, times a power of ten. -/
def decimal (whole fraction : List Char) (exponent : Int) : Decimal :=
  ⟨Nat.ofDigitChars 10 (whole ++ fraction) 0, exponent - fraction.length⟩

/-- An optional sign and the text behind it. -/
def sign : List Char → List Char × List Char
  | c :: cs => if c = '-' ∨ c = '+' then ([c], cs) else ([], c :: cs)
  | [] => ([], [])

/-- The number with a sign that may be missing. -/
def signed (sign : List Char) (n : Nat) : Int := if sign = ['-'] then -n else n

/-- The optional power of ten at the front of a text, with its exponent and the text behind it.
There is none if it breaks off before its digits. -/
def power : List Char → Option (Int × List Char × List Char)
  | c :: cs =>
    if c = 'e' ∨ c = 'E' then
      let s := sign cs
      let ds := s.2.takeWhile Char.isDigit
      if ds = [] then none
      else some (signed s.1 (Nat.ofDigitChars 10 ds 0), c :: s.1 ++ ds, s.2.dropWhile Char.isDigit)
    else some (0, [], c :: cs)
  | [] => some (0, [], [])

/-- What stands at the front of a text that is read for a literal. -/
inductive Scan where
  /-- No literal starts here. -/
  | absent
  /-- A literal starts here but breaks off. -/
  | broken
  /-- A literal, its value and the text behind it. -/
  | literal (value : Decimal) (text rest : List Char)
deriving DecidableEq, Repr

/-- The literal with these digits, once its power of ten has been read. -/
def Scan.ofDigits (whole point fraction rest : List Char) : Scan :=
  match power rest with
  | some (e, text, rest) =>
    .literal (decimal whole fraction e) (whole ++ point ++ fraction ++ text) rest
  | none => .broken

/-- Reads the longest literal at the front of a text. -/
def scan (cs : List Char) : Scan :=
  let whole := cs.takeWhile Char.isDigit
  match cs.dropWhile Char.isDigit with
  | '.' :: tail =>
    let fraction := tail.takeWhile Char.isDigit
    if fraction ≠ [] then .ofDigits whole ['.'] fraction (tail.dropWhile Char.isDigit)
    else if whole = [] then .absent
    else .broken
  | rest => if whole = [] then .absent else .ofDigits whole [] [] rest

theorem sign_append (cs : List Char) : (sign cs).1 ++ (sign cs).2 = cs := by
  cases cs with
  | nil => rfl
  | cons c cs => simp only [sign]; split <;> rfl

theorem power_append {cs text rest : List Char} {e : Int} (h : power cs = some (e, text, rest)) :
    text ++ rest = cs := by
  cases cs with
  | nil => cases h; rfl
  | cons c cs =>
    simp only [power] at h
    split at h
    · split at h
      · cases h
      · cases h
        rw [List.cons_append, List.cons_append, List.append_assoc,
          List.takeWhile_append_dropWhile, sign_append]
    · cases h; rfl

namespace Scan

variable {whole point fraction cs text rest : List Char} {d : Decimal}

theorem ofDigits_append (h : ofDigits whole point fraction cs = .literal d text rest) :
    text ++ rest = whole ++ point ++ fraction ++ cs := by
  unfold ofDigits at h
  split at h
  · next hp => cases h; rw [List.append_assoc, power_append hp]
  · cases h

theorem ofDigits_ne_nil (h : ofDigits whole point fraction cs = .literal d text rest)
    (hd : whole ≠ [] ∨ fraction ≠ []) : text ≠ [] := by
  unfold ofDigits at h
  split at h
  · cases h
    rcases hd with hd | hd <;> simp [hd]
  · cases h

end Scan

theorem scan_append {cs text rest : List Char} {d : Decimal} (h : scan cs = .literal d text rest) :
    text ++ rest = cs := by
  have hcs := List.takeWhile_append_dropWhile (p := Char.isDigit) (l := cs)
  simp only [scan] at h
  split at h
  · next tail htail =>
    split at h
    · rw [Scan.ofDigits_append h, List.append_assoc, List.takeWhile_append_dropWhile,
        List.append_assoc, List.singleton_append, ← htail, hcs]
    · split at h <;> cases h
  · split at h
    · cases h
    · rw [Scan.ofDigits_append h, List.append_nil, List.append_nil, hcs]

theorem scan_ne_nil {cs text rest : List Char} {d : Decimal} (h : scan cs = .literal d text rest) :
    text ≠ [] := by
  simp only [scan] at h
  split at h
  · split at h
    · next hf => exact Scan.ofDigits_ne_nil h (.inr hf)
    · split at h <;> cases h
  · split at h
    · cases h
    · next hw => exact Scan.ofDigits_ne_nil h (.inl hw)

/-- The digits of a number around a decimal point, which need not have digits on both sides, and
the text behind them. -/
def digitsAround (cs : List Char) : Option (List Char × List Char × List Char) :=
  let whole := cs.takeWhile Char.isDigit
  let (fraction, rest) :=
    match cs.dropWhile Char.isDigit with
    | '.' :: tail => (tail.takeWhile Char.isDigit, tail.dropWhile Char.isDigit)
    | rest => ([], rest)
  if whole = [] ∧ fraction = [] then none else some (whole, fraction, rest)

/-- The unsigned number that is all of `cs`. -/
def readUnsigned (cs : List Char) : Option Float :=
  match String.ofList (cs.map Char.toLower) with
  | "inf" | "infinity" => some (Binary64.ofMagnitude false Binary64.infinity)
  | "nan" => some (0 / 0)
  | _ =>
    match digitsAround cs with
    | none => none
    | some (whole, fraction, rest) =>
      match power rest with
      | some (e, _, []) => some (decimal whole fraction e).toFloat
      | _ => none

/-- The number that is all of `s`. -/
def readFloat (s : String) : Option Float :=
  let (sign, cs) := sign s.toList
  (readUnsigned cs).map fun x => if sign = ['-'] then -x else x

/-- The natural number that is all of `s`, if it is at most `max`. -/
def readNat (max : Nat) (s : String) : Option Nat :=
  let cs :=
    match s.toList with
    | '+' :: cs => cs
    | cs => cs
  let n := Nat.ofDigitChars 10 cs 0
  if cs = [] ∨ !cs.all Char.isDigit ∨ max < n then none else some n

end CurvePlot.Numeral
