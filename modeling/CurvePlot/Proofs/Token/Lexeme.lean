import CurvePlot.Proofs.Binary64.Bits
import CurvePlot.Proofs.Decimal.ReadBack
import CurvePlot.Proofs.Numeral.Literal
import CurvePlot.Token.Lexer

/-! Lexemes: the texts of single tokens.

`Spells text kind` says which token a lexeme stands for. Reading takes the longest lexeme from the
front of a text: what comes behind it matters for its first character only (`read_token`), so that no
longer one can stand there (`read_isLongest`). Where it fails, there is a literal that breaks off or
is too large (`read_malformed`), or a character that no lexeme begins with (`read_unexpected`). -/

namespace CurvePlot

namespace Token.Kind

variable {c : Char} {kind : Kind}

/-- The kinds that are read from characters. Their numbers are finite and have no sign. -/
def Written : Kind → Prop
  | .number v => v.isFinite = true ∧ Binary64.isNegative v = false
  | .eof => False
  | _ => True

theorem Written.ne_eof (h : kind.Written) : kind ≠ .eof := by
  rintro rfl
  exact h

theorem written_ofChar? (h : ofChar? c = some kind) : kind.Written := by
  unfold ofChar? at h
  split at h <;> cases h <;> trivial

theorem written_toFloat {d : Decimal} (h : d.toFloat.isFinite = true) :
    (number d.toFloat).Written := by
  refine ⟨h, ?_⟩
  rw [Decimal.toFloat_eq]
  exact Binary64.isNegative_ofMagnitude d.magnitude_le

end Token.Kind

namespace Lexeme

open Numeral (Literal scan)

/-- A name is a letter with letters and digits behind it, a number is a literal with a finite value,
and all other tokens are single characters. -/
inductive Spells : List Char → Token.Kind → Prop where
  | name {c : Char} {cs : List Char} : c.isAlpha = true → (∀ c' ∈ cs, c'.isAlphanum) →
      Spells (c :: cs) (.ident (String.ofList (c :: cs)))
  | number {text : List Char} {d : Decimal} : Literal text d → d.toFloat.isFinite = true →
      Spells text (.number d.toFloat)
  | symbol {c : Char} {kind : Token.Kind} : Token.Kind.ofChar? c = some kind → Spells [c] kind

/-- The lexemes of all classes, literals that are too large among them. -/
def Lexical (text : List Char) : Prop := (∃ kind, Spells text kind) ∨ ∃ d, Literal text d

/-- `text` is the longest lexeme at the front of `cs`. -/
structure IsLongest (text cs : List Char) : Prop where
  isPrefix : text <+: cs
  length_le : ∀ t, Lexical t → t <+: cs → t.length ≤ text.length

variable {c : Char} {cs text rest rest' : List Char} {kind : Token.Kind} {d : Decimal}

theorem Spells.written (h : Spells text kind) : kind.Written := by
  cases h with
  | name => trivial
  | number _ hd => exact Token.Kind.written_toFloat hd
  | symbol h => exact Token.Kind.written_ofChar? h

/-! ## Reading a lexeme -/

theorem isDigit_of_isAlpha (h : c.isAlpha = true) : c.isDigit = false := by
  simp only [Char.isAlpha, Char.isUpper, Char.isLower, Char.isDigit, Bool.or_eq_true,
    Bool.and_eq_true, decide_eq_true_eq, Bool.and_eq_false_iff, decide_eq_false_iff_not,
    UInt32.le_iff_toNat_le, ge_iff_le] at h ⊢
  have h9 : '9'.val.toNat = 57 := rfl
  have hA : 'A'.val.toNat = 65 := rfl
  have ha : 'a'.val.toNat = 97 := rfl
  omega

/-- No literal begins with a letter. -/
theorem isAlpha_of_scan (h : scan (c :: cs) ≠ .absent) : c.isAlpha = false := by
  refine Bool.eq_false_iff.mpr fun hc => h (Numeral.scan_absent (isDigit_of_isAlpha hc) ?_)
  rintro rfl
  exact absurd hc (by decide)

theorem read_symbol (h : Token.Kind.ofChar? c = some kind) : read (c :: cs) = .token kind [c] cs := by
  have hc : c.isAlpha = false ∧ c.isDigit = false ∧ c ≠ '.' := by
    unfold Token.Kind.ofChar? at h
    split at h <;> cases h <;> decide
  simp [read, hc.1, Numeral.scan_absent hc.2.1 hc.2.2, h]

theorem read_name (hc : c.isAlpha = true) (hcs : ∀ c' ∈ cs, c'.isAlphanum)
    (h : ∀ c' ∈ rest.head?, c'.isAlphanum = false) :
    read (c :: cs ++ rest) = .token (.ident (String.ofList (c :: cs))) (c :: cs) rest := by
  rw [List.cons_append]
  simp [read, hc, takeWhile_append_rest hcs h, dropWhile_append_rest hcs h]

theorem read_literal (h : scan cs = .literal d text rest) :
    read cs = if d.toFloat.isFinite then .token (.number d.toFloat) text rest else .malformed := by
  cases cs with
  | nil => cases h
  | cons c cs =>
    have hpresent : scan (c :: cs) ≠ .absent := by simp [h]
    simp [read, isAlpha_of_scan hpresent, h]

theorem read_number (h : scan cs = .literal d text rest) (hd : d.toFloat.isFinite = true) :
    read cs = .token (.number d.toFloat) text rest := by
  rw [read_literal h, if_pos hd]

theorem Spells.read (h : Spells text kind) : read text = .token kind text [] := by
  cases h with
  | @name c cs hc hcs =>
    have hread : Lexeme.read (c :: cs ++ []) = _ := read_name hc hcs nofun
    rwa [List.append_nil] at hread
  | number h hd => exact read_number h.scan hd
  | symbol h => exact read_symbol h

/-- What is read is a lexeme, and what comes behind it matters for its start only. -/
theorem read_token (h : read cs = .token kind text rest) :
    Spells text kind ∧
      ∀ rest', StopsLike EndsAt rest rest' → read (text ++ rest') = .token kind text rest' := by
  cases cs with
  | nil => cases h
  | cons c cs =>
    simp only [read] at h
    split at h
    · next hc =>
      cases h
      refine ⟨.name hc all_takeWhile, fun rest' hr => ?_⟩
      exact read_name hc all_takeWhile (hr.head (fun _ h => h.1) head_dropWhile)
    · split at h
      · next hs =>
        split at h
        · next hd =>
          cases h
          obtain ⟨hlit, hcut⟩ := Numeral.scan_literal hs
          exact ⟨.number hlit hd, fun rest' hr => read_number (hcut rest' hr) hd⟩
        · cases h
      · cases h
      · split at h
        · next hk =>
          cases h
          exact ⟨.symbol hk, fun rest' _ => read_symbol hk⟩
        · cases h

/-- A lexeme is read to its end, if it is not too large. -/
theorem Lexical.read (h : Lexical text) :
    (∃ kind, Lexeme.read text = .token kind text []) ∨ Lexeme.read text = .malformed := by
  obtain ⟨kind, h⟩ | ⟨d, h⟩ := h
  · exact .inl ⟨kind, h.read⟩
  · rw [read_literal h.scan]
    split
    · exact .inl ⟨_, rfl⟩
    · exact .inr rfl

theorem Lexical.rest_eq_nil (h : Lexical cs) (hr : Lexeme.read cs = .token kind text rest) :
    rest = [] := by
  obtain ⟨kind', h⟩ | h := h.read
  · rw [h] at hr
    cases hr
    rfl
  · rw [h] at hr
    cases hr

theorem read_isLongest (h : read cs = .token kind text rest) : IsLongest text cs where
  isPrefix := ⟨rest, read_append h⟩
  length_le t ht hp := by
    rw [← read_append h] at hp
    refine Nat.le_of_not_lt fun hlt => ?_
    obtain ⟨more, rfl⟩ : text <+: t :=
      List.prefix_of_prefix_length_le (List.prefix_append _ _) hp (Nat.le_of_lt hlt)
    have hread := (read_token h).2 more (.of_isPrefix ((List.prefix_append_right_inj _).mp hp))
    rw [ht.rest_eq_nil hread, List.append_nil] at hlt
    exact absurd hlt (Nat.lt_irrefl _)

/-! ## Where there is none -/

theorem read_finished (h : read cs = .finished) : cs = [] := by
  cases cs with
  | nil => rfl
  | cons c cs =>
    simp only [read] at h
    split at h
    · cases h
    · split at h
      · split at h <;> cases h
      · cases h
      · split at h <;> cases h

/-- A literal at the front of `cs` that is too large: the longest one there has no finite value. -/
def Overflows (cs : List Char) : Prop :=
  ∃ text d, Literal text d ∧ text <+: cs ∧
    (∀ t d', Literal t d' → t <+: cs → t.length ≤ text.length) ∧ d.toFloat.isFinite = false

theorem read_malformed (h : read cs = .malformed) : Numeral.Broken cs ∨ Overflows cs := by
  cases cs with
  | nil => cases h
  | cons c cs =>
    simp only [read] at h
    split at h
    · cases h
    · split at h
      · next d text rest hs =>
        split at h
        · cases h
        · next hd =>
          refine .inr ⟨text, d, (Numeral.scan_literal hs).1, ⟨rest, Numeral.scan_append hs⟩, ?_, ?_⟩
          · exact fun t d' ht hp => ht.length_le hs hp
          · exact Bool.eq_false_iff.mpr hd
      · next hs => exact .inl (Numeral.broken_of_scan hs)
      · split at h <;> cases h

/-- `c` begins no lexeme in front of `rest`. -/
structure Unexpected (c : Char) (rest : List Char) : Prop where
  isAlpha : c.isAlpha = false
  isDigit : c.isDigit = false
  ofChar? : Token.Kind.ofChar? c = none
  point : c = '.' → ∀ c' ∈ rest.head?, c'.isDigit = false

theorem Unexpected.read (h : Unexpected c rest) : Lexeme.read (c :: rest) = .unexpected c := by
  have hscan : scan (c :: rest) = .absent := by
    refine Numeral.scan_eq_absent ?_ ?_
    · rintro c' ⟨⟩
      exact h.isDigit
    · rintro t ⟨⟩
      exact h.point rfl
  simp [Lexeme.read, h.isAlpha, hscan, h.ofChar?]

theorem Unexpected.not_isPrefix (h : Unexpected c rest) (ht : Lexical text) :
    ¬text <+: c :: rest := by
  rintro ⟨more, hmore⟩
  cases text with
  | nil => obtain ⟨_, ⟨⟩⟩ | ⟨⟨⟩⟩ := ht.read
  | cons c' cs =>
    obtain ⟨rfl, rfl⟩ := List.cons.inj hmore
    have hstop : StopsLike EndsAt (cs ++ more) cs := .of_append
    have hc : Unexpected c' cs := ⟨h.isAlpha, h.isDigit, h.ofChar?, fun hp =>
      hstop.head (fun _ => EndsAt.isDigit) (h.point hp)⟩
    rcases ht.read with ⟨_, hr⟩ | hr <;> rw [hc.read] at hr <;> cases hr

theorem read_unexpected (h : read cs = .unexpected c) :
    ∃ rest, cs = c :: rest ∧ Unexpected c rest := by
  cases cs with
  | nil => cases h
  | cons c' cs =>
    simp only [read] at h
    split at h
    · cases h
    · next hc =>
      split at h
      · split at h <;> cases h
      · cases h
      · next hs =>
        split at h
        · cases h
        · next hk =>
          cases h
          obtain ⟨hd, hp⟩ := Numeral.of_scan_absent hs
          refine ⟨cs, rfl, Bool.eq_false_iff.mpr hc, hd c rfl, hk, ?_⟩
          rintro rfl
          exact hp cs rfl

end Lexeme

end CurvePlot
