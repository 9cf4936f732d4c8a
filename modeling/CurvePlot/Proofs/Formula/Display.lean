import CurvePlot.Proofs.Formula.Canonical
import CurvePlot.Proofs.Token.Hyphen

/-! Reading the text that is shown.

Canonical texts have no character that a minus sign can be, but for the hyphen. So the text that is
shown reads back under its own minus sign (`Glyph.toCanonical_toDisplay`), and any other minus sign
than the hyphen has no use in an expression without it (`Glyph.foreign`). -/

namespace CurvePlot

variable {g : Glyph}

/-! ## Minus signs -/

namespace GlyphSetting

theorem load_ofGlyph (g : Glyph) : (ofGlyph g).load = g := by
  obtain ⟨c, hc⟩ := g
  have hload : (ofGlyph ⟨c, hc⟩).load = .ofChar c := dif_pos c.valid
  rw [hload, Glyph.ofChar]
  rcases hc with rfl | hc
  · rfl
  · exact dif_neg (Nat.not_lt_of_le hc)

/-- A setting gives the minus sign that it was changed to last. -/
theorem load_foldl_store (g : Glyph) (gs : List Glyph) :
    (gs.foldl store (ofGlyph g)).load = (g :: gs).getLast (List.cons_ne_nil g gs) := by
  induction gs generalizing g with
  | nil => exact load_ofGlyph g
  | cons g' gs ih =>
    rw [List.getLast_cons_cons]
    exact ih g'

end GlyphSetting

namespace Glyph

theorem display_ofChar (c : Char) : (ofChar c).display = if c.toNat < 128 then '-' else c := by
  rw [ofChar]
  split <;> rfl

theorem display_choose (candidates : List Char) (renders : Char → Bool) :
    (choose candidates renders).display =
      (candidates.find? fun c => !(c.toNat < 128) && renders c).getD '-' := by
  rw [choose]
  split
  · next c hc =>
    have hascii := List.find?_some hc
    rw [Bool.and_eq_true, Bool.not_eq_true', decide_eq_false_iff_not] at hascii
    rw [display_ofChar, if_neg hascii.1, hc]
    rfl
  · next hnone =>
    rw [hnone]
    rfl

/-- Lexemes and blanks are ASCII characters. -/
theorem foreign (h : g.display ≠ '-') : Lexeme.Foreign g.display := by
  have hdisplay := g.safe.resolve_left h
  refine ⟨Bool.eq_false_iff.mpr fun hblank => ?_, fun hlexeme => ?_⟩
  · obtain hc | hc | hc | hc := Token.isBlank_iff.mp hblank <;>
      exact absurd hdisplay (by rw [hc]; decide)
  · have hbounds := hlexeme.toNat_bounds
    omega

theorem toCanonical_toDisplay {s : String} (h : ∀ c ∈ s.toList, c = g.display → c = '-') :
    g.toCanonical (g.toDisplay s) = s := by
  rw [toCanonical, toDisplay, ← String.toList_inj, String.toList_map, String.toList_map, List.map_map]
  refine (List.map_congr_left fun c hc => ?_).trans (List.map_id' _)
  rw [Function.comp_apply]
  split
  · next heq => rw [heq, if_pos rfl]
  · next hne => exact if_neg fun hg => hne (h c hc hg)

theorem not_mem_toDisplay (h : g.display ≠ '-') (s : String) : '-' ∉ (g.toDisplay s).toList := by
  rw [toDisplay, String.toList_map, List.mem_map]
  rintro ⟨c, -, hc⟩
  split at hc
  · exact h hc
  · next hne => exact hne hc

theorem idxOf_toDisplay {s : String} (h : g.display ∉ s.toList) :
    (g.toDisplay s).toList.idxOf g.display = s.toList.idxOf '-' := by
  rw [toDisplay, String.toList_map]
  generalize s.toList = cs at h
  induction cs with
  | nil => rfl
  | cons c cs ih =>
    rw [List.mem_cons, not_or] at h
    rw [List.map_cons, List.idxOf_cons, List.idxOf_cons, ih h.2]
    by_cases hc : c = '-'
    · simp [hc]
    · rw [if_neg hc, beq_eq_false_iff_ne.mpr (Ne.symm h.1), beq_eq_false_iff_ne.mpr hc]

end Glyph

/-! ## Formulas -/

namespace Formula

/-- The place of the first minus sign in the text that is shown. -/
def firstMinus (f : Formula) : Nat := f.display.toList.idxOf f.glyph.display

theorem parse_hyphen_of_tokenize {s : String} {e : LexError} (h : Token.tokenize s = .error e) :
    parse .hyphen s = .error (.lex e) := by
  rw [parse_eq, Glyph.toCanonical_hyphen, Expr.ofText, h]
  rfl

/-- **What is shown reads back.** A minus sign is the hyphen or no ASCII character, whether it is made of
a character, chosen among candidates or taken from a setting, which gives the one that was stored
last. Under its own minus sign, the text of a formula that is shown gives the same as the canonical one.
Under the hyphen, a text with another minus sign is refused at the first one, or at the literal whose
exponent has it for a sign. -/
theorem parse_display (g : Glyph) :
    ((g.display = '-' ∨ 128 ≤ g.display.toNat) ∧
      (∀ c, (Glyph.ofChar c).display = if c.toNat < 128 then '-' else c) ∧
      (∀ candidates renders, (Glyph.choose candidates renders).display =
        (candidates.find? fun c => !(c.toNat < 128) && renders c).getD '-') ∧
      ∀ gs, (gs.foldl GlyphSetting.store (.ofGlyph g)).load = (g :: gs).getLast (by simp)) ∧
    ∀ raw f, parse g raw = .ok f →
      parse g f.display = parse g f.canonical ∧
      (g.display ≠ '-' → '-' ∉ f.display.toList ∧
        ('-' ∈ f.canonical.toList →
          (∃ start, Token.ExponentSign f.canonical start f.firstMinus ∧
            parse .hyphen f.display = .error (.lex (.malformedNumber start))) ∨
          (∀ start, ¬Token.ExponentSign f.canonical start f.firstMinus) ∧
            parse .hyphen f.display =
              .error (.lex (.unexpectedCharacter f.firstMinus g.display)))) := by
  refine ⟨⟨g.safe, Glyph.display_ofChar, Glyph.display_choose, GlyphSetting.load_foldl_store g⟩,
    fun raw f h => ?_⟩
  rw [parse_eq] at h
  obtain ⟨a, ha, rfl⟩ := Except.map_eq_ok.mp h
  have htext := g.eq_hyphen_of_mem_text a
  refine ⟨?_, fun hg => ⟨g.not_mem_toDisplay hg a.text, fun hmem => ?_⟩⟩
  · rw [parse_eq, parse_eq]
    exact congrArg _ (congrArg _ ((g.toCanonical_toDisplay htext).trans (g.toCanonical_text a).symm))
  · have hfirst : firstMinus ⟨a, g⟩ = a.text.toList.idxOf '-' :=
      Glyph.idxOf_toDisplay fun hmem => hg (htext _ hmem rfl)
    obtain ⟨ts, o, hts, -⟩ := (Expr.lexed_text a).tokenize
    rw [hfirst]
    rcases Token.tokenize_replace hts hmem (Glyph.foreign hg) with
      ⟨start, hsign, herror⟩ | ⟨hsign, herror⟩
    · exact .inl ⟨start, hsign, parse_hyphen_of_tokenize herror⟩
    · exact .inr ⟨hsign, parse_hyphen_of_tokenize herror⟩

/-- The first minus sign belongs to the number, which is refused without it. -/
theorem parse_display_exponent :
    let g := Glyph.ofChar '−'
    let f : Formula := ⟨.binary .sub (.number 2.5e-7) .var, g⟩
    parse g "(0.00000025) − x" = .ok f ∧ f.display.toList = "2.5e−7 − x".toList ∧
      parse g f.display = parse g f.canonical ∧ '-' ∉ f.display.toList ∧
      ∃ start, Token.ExponentSign f.canonical start f.firstMinus ∧
        parse .hyphen f.display = .error (.lex (.malformedNumber start)) := by
  intro g f
  have h : parse g "(0.00000025) − x" = .ok f := Except.eq_ok_of_toOption (by decide +kernel)
  have hplain : parse .hyphen f.display = .error (.lex (.malformedNumber 0)) := by decide +kernel
  obtain ⟨hread, hrefused⟩ := (parse_display g).2 _ _ h
  obtain ⟨hmem, herror⟩ := hrefused (by decide)
  refine ⟨h, by decide +kernel, hread, hmem, (herror (by decide +kernel)).resolve_right ?_⟩
  rintro ⟨-, hother⟩
  rw [hplain] at hother
  cases hother

end Formula

end CurvePlot
