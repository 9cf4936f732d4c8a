import CurvePlot.Proofs.Token.Reading
import CurvePlot.Text.Blank

/-! The characters of texts that consist of tokens.

Besides the blanks, a text that is read to its end holds only characters of lexemes (`Lexed.mem`), and
at least one of them if it has a token at all (`Lexed.exists_mem`). These are ASCII characters, and
no white space in any sense. -/

namespace CurvePlot

namespace Numeral

variable {m w f es text : List Char} {n : Int} {d : Decimal}

/-- The characters of literals. -/
def InLiteral (c : Char) : Prop := c.isDigit = true ∨ IsMark c ∨ c ∈ ['.', '-', '+']

theorem Mantissa.inLiteral (h : Mantissa m w f) : ∀ c ∈ m, InLiteral c := by
  cases h with
  | whole hw => exact fun c hc => .inl (hw.2 c hc)
  | point hw hf =>
    rw [List.forall_mem_append, List.forall_mem_cons]
    exact ⟨fun c hc => .inl (hw c hc), .inr (.inr (by decide)), fun c hc => .inl (hf.2 c hc)⟩

theorem IsSign.inLiteral {s : List Char} (h : IsSign s) : ∀ c ∈ s, InLiteral c := by
  rcases h with rfl | rfl | rfl
  · nofun
  · exact fun c hc => .inr (.inr (by simp_all))
  · exact fun c hc => .inr (.inr (by simp_all))

theorem Power.inLiteral (h : Power es n) : ∀ c ∈ es, InLiteral c := by
  cases h with
  | none => nofun
  | some hc hs hds =>
    rw [List.forall_mem_cons, List.forall_mem_append]
    exact ⟨.inr (.inl hc), hs.inLiteral, fun c hc => .inl (hds.2 c hc)⟩

theorem Literal.inLiteral (h : Literal text d) : ∀ c ∈ text, InLiteral c := by
  obtain ⟨hm, hes⟩ := h
  exact List.forall_mem_append.mpr ⟨hm.inLiteral, hes.inLiteral⟩

end Numeral

namespace Lexeme

variable {c : Char} {text : List Char} {kind : Token.Kind}

/-- The characters of lexemes. -/
def InLexeme (c : Char) : Prop := c.isAlphanum = true ∨ c = '.' ∨ (Token.Kind.ofChar? c).isSome

theorem Spells.inLexeme (h : Spells text kind) : ∀ c ∈ text, InLexeme c := by
  cases h with
  | name hc hcs =>
    rw [List.forall_mem_cons]
    exact ⟨.inl (by rw [Char.isAlphanum, hc, Bool.true_or]), fun c hc => .inl (hcs c hc)⟩
  | number h =>
    intro c hc
    obtain hd | (rfl | rfl) | hc := h.inLiteral c hc
    · exact .inl (by rw [Char.isAlphanum, hd, Bool.or_true])
    · exact .inl rfl
    · exact .inl rfl
    · have hall : ∀ c ∈ ['.', '-', '+'], InLexeme c := by simp [InLexeme, Token.Kind.ofChar?]
      exact hall c hc
  | symbol h =>
    intro c hc
    rw [List.mem_singleton.mp hc]
    exact .inr (.inr (by rw [h]; rfl))

theorem InLexeme.toNat_bounds (h : InLexeme c) : 40 ≤ c.toNat ∧ c.toNat ≤ 122 := by
  obtain h | rfl | h := h
  · simp only [Char.isAlphanum, Char.isAlpha, Char.isUpper, Char.isLower, Char.isDigit,
      Bool.or_eq_true, Bool.and_eq_true, decide_eq_true_eq, UInt32.le_iff_toNat_le, ge_iff_le] at h
    have hval : c.toNat = c.val.toNat := rfl
    have hZ : 'Z'.val.toNat = 90 := rfl
    have hz : 'z'.val.toNat = 122 := rfl
    have h9 : '9'.val.toNat = 57 := rfl
    have hA : 'A'.val.toNat = 65 := rfl
    have ha : 'a'.val.toNat = 97 := rfl
    have h0 : '0'.val.toNat = 48 := rfl
    omega
  · decide
  · unfold Token.Kind.ofChar? at h
    split at h <;> first | decide | cases h

theorem not_inLexeme_semicolon : ¬InLexeme ';' := by
  simp [InLexeme, Token.Kind.ofChar?]

theorem InLexeme.isSpace (h : InLexeme c) : Text.isSpace c = false := by
  obtain ⟨hlo, hhi⟩ := h.toNat_bounds
  simp [Text.isSpace, Text.inRanges, Text.spaceRanges]
  omega

theorem ofChar?_eq_lparen : Token.Kind.ofChar? c = some .lparen ↔ c = '(' := by
  refine ⟨fun h => ?_, fun h => by rw [h]; rfl⟩
  unfold Token.Kind.ofChar? at h
  split at h <;> cases h
  rfl

theorem ne_lparen_of_inLiteral (h : Numeral.InLiteral c) : c ≠ '(' := by
  rintro rfl
  obtain h | h | h := h
  · cases h
  · obtain h | h := h <;> cases h
  · simp at h

/-- A lexeme has a parenthesis only if that is what it is. -/
theorem Spells.count_lparen (h : Spells text kind) :
    text.count '(' = [kind].count .lparen := by
  cases h with
  | @name c cs hc hcs =>
    refine (List.count_eq_zero.mpr ?_).trans (List.count_eq_zero.mpr (by simp)).symm
    have hall : ∀ c' ∈ c :: cs, c'.isAlphanum = true :=
      List.forall_mem_cons.mpr ⟨by rw [Char.isAlphanum, hc, Bool.true_or], hcs⟩
    exact fun hmem => absurd (hall _ hmem) (by decide)
  | number h =>
    refine (List.count_eq_zero.mpr ?_).trans (List.count_eq_zero.mpr (by simp)).symm
    exact fun hmem => ne_lparen_of_inLiteral (h.inLiteral _ hmem) rfl
  | @symbol c kind h =>
    by_cases hc : c = '('
    · subst hc
      cases h
      rfl
    · have hkind : kind ≠ .lparen := fun hk => hc (ofChar?_eq_lparen.mp (hk ▸ h))
      rw [List.count_singleton, List.count_singleton]
      simp [hc, hkind]

end Lexeme

namespace Lexed

open Lexeme

variable {cs rest : List Char} {ks : List Token.Kind}

theorem mem (h : Lexed cs ks rest) : ∀ c ∈ cs, c ∈ rest ∨ Token.isBlank c = true ∨ InLexeme c := by
  induction h with
  | done => exact fun c hc => .inl hc
  | blank hc _ ih =>
    rw [List.forall_mem_cons]
    exact ⟨.inr (.inl hc), ih⟩
  | token hr _ ih =>
    rw [← read_append hr, List.forall_mem_append]
    exact ⟨fun c hc => .inr (.inr ((read_token hr).1.inLexeme c hc)), ih⟩

theorem exists_mem (h : Lexed cs ks rest) (hks : ks ≠ []) : ∃ c ∈ cs, InLexeme c := by
  induction h with
  | done => exact absurd rfl hks
  | blank _ _ ih =>
    obtain ⟨c, hc, hlex⟩ := ih hks
    exact ⟨c, List.mem_cons_of_mem _ hc, hlex⟩
  | token hr _ _ =>
    obtain ⟨c, hc⟩ := List.exists_mem_of_ne_nil _ (read_ne_nil hr)
    refine ⟨c, ?_, (read_token hr).1.inLexeme c hc⟩
    rw [← read_append hr]
    exact List.mem_append_left _ hc

/-- The parentheses of a text are those among its tokens. -/
theorem count_lparen (h : Lexed cs ks rest) :
    cs.count '(' = ks.count .lparen + rest.count '(' := by
  induction h with
  | done => simp
  | blank hc _ ih =>
    rw [List.count_cons_of_ne, ih]
    rintro rfl
    cases hc
  | token hr _ ih =>
    rw [← read_append hr, List.count_append, (read_token hr).1.count_lparen, ih,
      ← Nat.add_assoc, ← List.count_append]
    rfl

end Lexed

end CurvePlot
