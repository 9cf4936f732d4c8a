import CurvePlot.Proofs.Series.Concat
import CurvePlot.Proofs.Token.Blanks

/-! Items that are left out, and empty expressions.

An item is left out if it is white space of any kind (`split_eq_nil`). For the reader only blanks are
nothing: it refuses the first character of white space that is no blank (`parse_of_isSpace`). With that
difference a series is read if each of its items is, and it may be typed with hyphens as well
(`readItems_normalized`). -/

namespace CurvePlot

/-- White space that is no blank is in no token either. -/
theorem Token.foreign_of_isSpace {c : Char} (h : Text.isSpace c = true) (hc : Token.isBlank c = false) :
    Lexeme.Foreign c where
  isBlank := hc
  not_inLexeme hlex := by
    rw [hlex.isSpace] at h
    cases h

namespace Glyph

variable {g : Glyph} {c : Char}

/-- The hyphen for the minus sign, and any other character as it is. -/
def canonicalChar (g : Glyph) (c : Char) : Char := if c = g.display then '-' else c

theorem display_ne (h : c.toNat < 128) (hc : c ≠ '-') : g.display ≠ c := by
  rintro rfl
  obtain hs | hs := g.safe
  · exact hc hs
  · omega

theorem canonicalChar_eq_separator : g.canonicalChar c = Series.separator ↔ c = Series.separator := by
  rw [canonicalChar]
  split
  · next hc =>
    subst hc
    exact iff_of_false (by decide) (display_ne (by decide) (by decide))
  · rfl

end Glyph

namespace Series

variable {g : Glyph} {index start : Nat} {item : List Char} {cs : List Char}

theorem isBlankItem_iff : isBlankItem item = true ↔ ∀ c ∈ item, Text.isSpace c = true :=
  List.all_eq_true

/-! ## Reading white space -/

/-- What is wrong with white space: that there is nothing, or its first character that is no blank. -/
def whiteError (item : List Char) : ReadError :=
  match item.dropWhile Token.isBlank with
  | [] => .parse .emptyExpression
  | c :: _ => .lex (.unexpectedCharacter (item.takeWhile Token.isBlank).length c)

theorem ofText_of_isSpace (h : ∀ c ∈ item, Text.isSpace c = true) :
    Expr.ofText (String.ofList item) = .error (whiteError item) := by
  have hblanks : ∀ c ∈ item.takeWhile Token.isBlank, Token.isBlank c = true := all_takeWhile
  have hsplit := List.takeWhile_append_dropWhile (p := Token.isBlank) (l := item)
  have htokens (rest : List Char) (hrest : item.dropWhile Token.isBlank = rest) :
      Token.tokenize (String.ofList item) =
        (Token.stream (item.takeWhile Token.isBlank).length rest).mapM id := by
    rw [hrest] at hsplit
    rw [Token.tokenize, String.toList_ofList]
    conv_lhs => rw [← hsplit, Token.stream_blanks hblanks, Nat.zero_add]
  rw [whiteError]
  split
  · next hrest =>
    rw [Expr.ofText_of_tokenize (htokens _ hrest |>.trans (by rw [Token.stream_nil]; rfl))]
    rfl
  · next c rest hrest =>
    have hmem : c ∈ item := by
      rw [← hsplit, hrest]
      exact List.mem_append_right _ List.mem_cons_self
    have hhead : ∀ c ∈ (item.dropWhile Token.isBlank).head?, Token.isBlank c = false := head_dropWhile
    have hc : Token.isBlank c = false := hhead c (by rw [hrest]; rfl)
    rw [Expr.ofText, htokens _ hrest, Token.stream_unexpected (Token.foreign_of_isSpace (h c hmem) hc)]
    rfl

/-- White space without a minus sign in it is no formula. -/
theorem parse_of_isSpace (h : ∀ c ∈ item, Text.isSpace c = true) (hg : g.display ∉ item) :
    Formula.parse g (String.ofList item) = .error (whiteError item) := by
  have hself : g.toCanonical (String.ofList item) = String.ofList item := by
    refine g.toCanonical_eq_self fun c hc hdisplay => absurd ?_ hg
    rw [String.toList_ofList] at hc
    exact hdisplay ▸ hc
  rw [Formula.parse_eq, hself, ofText_of_isSpace h]
  rfl

theorem parse_eq_emptyExpression :
    Formula.parse g (String.ofList item) = .error (.parse .emptyExpression) ↔
      ∀ c ∈ item, Token.isBlank c = true := by
  refine ⟨isBlank_of_emptyExpression, fun h => ?_⟩
  have hg : g.display ∉ item := by
    intro hmem
    obtain hc | hc | hc | hc := Token.isBlank_iff.mp (h _ hmem) <;>
      exact Glyph.display_ne (by decide) (by decide) hc
  have hnil : item.dropWhile Token.isBlank = [] := List.dropWhile_eq_nil_iff.mpr h
  rw [parse_of_isSpace (fun c hc => isSpace_of_isBlank (h c hc)) hg, whiteError, hnil]

/-! ## Items -/

/-- An item is left out of a series if it is white space. -/
theorem split_eq_nil (h : separator ∉ item) :
    split g (String.ofList item) = .ok [] ↔ ∀ c ∈ item, Text.isSpace c = true := by
  rw [split, String.toList_ofList, items_eq_splitOn, List.splitOn_eq_singleton h, ← isBlankItem_iff]
  cases hblank : isBlankItem item with
  | true =>
    rw [readItems_blank hblank]
    exact iff_of_true rfl rfl
  | false =>
    refine iff_of_false ?_ Bool.false_ne_true
    cases hf : Formula.parse g (String.ofList item) with
    | error cause =>
      rw [readItems_fault hblank hf]
      intro h
      cases h
    | ok f =>
      rw [readItems_formula hblank hf]
      intro h
      obtain ⟨fs, -, hnil⟩ := Except.map_eq_ok.mp h
      exact List.cons_ne_nil f fs hnil

/-- Items are read if each of them is a formula or white space. -/
theorem exists_readItems {items : List (List Char)} :
    (∃ fs, readItems g index start items = .ok fs) ↔
      ∀ item ∈ items, (∃ f, Formula.parse g (String.ofList item) = .ok f) ∨ isBlankItem item = true := by
  fun_induction readItems g index start items with
  | case1 => exact iff_of_true ⟨_, rfl⟩ (List.forall_mem_nil _)
  | case2 index start item rest hblank ih =>
    rw [ih, List.forall_mem_cons]
    exact (and_iff_right (.inr hblank)).symm
  | case3 index start item rest hblank cause hf =>
    refine iff_of_false ?_ fun h => ?_
    · rintro ⟨fs, ⟨⟩⟩
    · obtain ⟨f, hf'⟩ | h := h item List.mem_cons_self
      · cases hf.symm.trans hf'
      · exact hblank h
  | case4 index start item rest hblank f hf ih =>
    rw [List.forall_mem_cons, ← ih, and_iff_right (.inl ⟨f, hf⟩)]
    constructor
    · rintro ⟨_, h⟩
      obtain ⟨fs, hfs, -⟩ := Except.bind_eq_ok.mp h
      exact ⟨fs, hfs⟩
    · rintro ⟨fs, hfs⟩
      exact ⟨f :: fs, Except.bind_eq_ok.mpr ⟨fs, hfs, rfl⟩⟩

/-! ## Hyphens for minus signs -/

theorem items_map {f : Char → Char} (hf : ∀ c, f c = separator ↔ c = separator) (cs : List Char) :
    items (cs.map f) = (items cs).map (List.map f) := by
  induction cs with
  | nil => rfl
  | cons c cs ih =>
    rw [List.map_cons, items, items, ih]
    by_cases hc : c = separator
    · rw [if_pos hc, if_pos ((hf c).mpr hc)]
      rfl
    · rw [if_neg hc, if_neg (mt (hf c).mp hc)]
      cases items cs <;> rfl

/-- No item that is white space has a minus sign in it, which would be white space as well. -/
def MinusShows (g : Glyph) (text : String) : Prop :=
  ∀ item ∈ items text.toList, (∀ c ∈ item, Text.isSpace c = true) → g.display ∉ item

theorem minusShows_of_display (h : Text.isSpace g.display = false) (text : String) :
    MinusShows g text := by
  intro item _ hspace hmem
  rw [hspace _ hmem] at h
  cases h

theorem isBlankItem_canonicalChar (h : isBlankItem item = true → g.display ∉ item) :
    isBlankItem (item.map g.canonicalChar) = isBlankItem item := by
  rw [Bool.eq_iff_iff, isBlankItem_iff, isBlankItem_iff, List.forall_mem_map]
  constructor
  · intro hspace c hc
    have hcanonical := hspace c hc
    rw [Glyph.canonicalChar] at hcanonical
    split at hcanonical
    · exact absurd hcanonical (by decide)
    · exact hcanonical
  · intro hspace c hc
    have hne : c ≠ g.display := by
      rintro rfl
      exact h (isBlankItem_iff.mpr hspace) hc
    rw [Glyph.canonicalChar, if_neg hne]
    exact hspace c hc

theorem parse_canonicalChar :
    Formula.parse .hyphen (String.ofList (item.map g.canonicalChar)) =
      (Formula.parse g (String.ofList item)).map fun f => { f with glyph := .hyphen } := by
  have hcanonical : g.toCanonical (String.ofList item) = String.ofList (item.map g.canonicalChar) := by
    rw [← String.toList_inj, Glyph.toList_toCanonical, String.toList_ofList, String.toList_ofList]
    rfl
  rw [Formula.parse_eq, Formula.parse_eq, Glyph.toCanonical_hyphen, hcanonical, Except.map_map]
  rfl

/-- Items are read alike with hyphens for their minus signs. -/
theorem readItems_normalized {items : List (List Char)}
    (h : ∀ item ∈ items, isBlankItem item = true → g.display ∉ item) :
    readItems .hyphen index start (items.map (List.map g.canonicalChar)) =
      (readItems g index start items).map (List.map fun f => { f with glyph := .hyphen }) := by
  fun_induction readItems g index start items with
  | case1 => rfl
  | case2 index start item rest hblank ih =>
    rw [List.forall_mem_cons] at h
    rw [List.map_cons, readItems_blank (by rw [isBlankItem_canonicalChar h.1, hblank]),
      List.length_map, ih h.2]
  | case3 index start item rest hblank cause hf =>
    rw [List.forall_mem_cons] at h
    have hnot : isBlankItem (item.map g.canonicalChar) = false := by
      rw [isBlankItem_canonicalChar h.1, Bool.eq_false_iff.mpr hblank]
    have hfault : Formula.parse .hyphen (String.ofList (item.map g.canonicalChar)) = .error cause := by
      rw [parse_canonicalChar, hf]
      rfl
    rw [List.map_cons, readItems_fault hnot hfault]
    rfl
  | case4 index start item rest hblank f hf ih =>
    rw [List.forall_mem_cons] at h
    have hnot : isBlankItem (item.map g.canonicalChar) = false := by
      rw [isBlankItem_canonicalChar h.1, Bool.eq_false_iff.mpr hblank]
    have hformula : Formula.parse .hyphen (String.ofList (item.map g.canonicalChar)) =
        .ok { f with glyph := .hyphen } := by
      rw [parse_canonicalChar, hf]
      rfl
    rw [List.map_cons, readItems_formula hnot hformula, List.length_map, ih h.2]
    cases readItems g (index + 1) (start + item.length + 1) rest <;> rfl

/-- **What is left out of a series.** An item that is an empty expression is left out. If no item of white
space has a minus sign in it, the items that are left out are those of white space, on which the reader
reports that there is nothing or the first character that is no blank; the series is read exactly if all
other items are, and with hyphens for its minus signs it is the same series or has the same error. -/
theorem split_blanks (g : Glyph) (text : String) :
    (∀ item ∈ items text.toList,
      (Formula.parse g (String.ofList item) = .error (.parse .emptyExpression) ↔
          ∀ c ∈ item, Token.isBlank c = true) ∧
        (Formula.parse g (String.ofList item) = .error (.parse .emptyExpression) →
          split g (String.ofList item) = .ok [])) ∧
      (MinusShows g text →
        (∀ item ∈ items text.toList,
          (split g (String.ofList item) = .ok [] ↔ ∀ c ∈ item, Text.isSpace c = true) ∧
            (split g (String.ofList item) = .ok [] →
              Formula.parse g (String.ofList item) = .error (whiteError item))) ∧
          ((∃ fs, split g text = .ok fs) ↔
            ∀ item ∈ items text.toList, (∃ f, Formula.parse g (String.ofList item) = .ok f) ∨
              ∀ c ∈ item, Text.isSpace c = true) ∧
          split .hyphen (g.toCanonical text) =
            (split g text).map (List.map fun f => { f with glyph := .hyphen })) := by
  have hnil {item : List Char} (hitem : item ∈ items text.toList) :
      split g (String.ofList item) = .ok [] ↔ ∀ c ∈ item, Text.isSpace c = true :=
    split_eq_nil (separator_not_mem_item hitem)
  refine ⟨fun item hitem => ⟨parse_eq_emptyExpression, fun hempty => ?_⟩, fun hshows =>
    ⟨fun item hitem => ⟨hnil hitem, fun h => ?_⟩, ?_, ?_⟩⟩
  · exact (hnil hitem).mpr (isBlankItem_iff.mp (isBlankItem_of_emptyExpression hempty))
  · have hspace := (hnil hitem).mp h
    exact parse_of_isSpace hspace (hshows item hitem hspace)
  · simp only [← isBlankItem_iff]
    exact exists_readItems
  · have hitems : items (g.toCanonical text).toList =
        (items text.toList).map (List.map g.canonicalChar) := by
      rw [Glyph.toList_toCanonical]
      exact items_map (fun c => Glyph.canonicalChar_eq_separator) _
    rw [split, split, hitems]
    exact readItems_normalized fun item hitem hblank => hshows item hitem (isBlankItem_iff.mp hblank)

/-- The item in the middle is a no-break space, the minus signs are not. -/
theorem split_blanks_noBreakSpace :
    let g := Glyph.ofChar '−'
    MinusShows g "−x;\u00a0; x " ∧ split g "\u00a0" = .ok [] ∧
      Formula.parse g "\u00a0" = .error (.lex (.unexpectedCharacter 0 '\u00a0')) ∧
      split .hyphen "-x;\u00a0; x " =
        (split g "−x;\u00a0; x ").map (List.map fun f => { f with glyph := .hyphen }) := by
  intro g
  have hshows : MinusShows g "−x;\u00a0; x " := minusShows_of_display (by decide) _
  have hitem : ['\u00a0'] ∈ items "−x;\u00a0; x ".toList := by decide
  have hcanonical : g.toCanonical "−x;\u00a0; x " = "-x;\u00a0; x " := by decide +kernel
  obtain ⟨hitems, -, hsame⟩ := (split_blanks g "−x;\u00a0; x ").2 hshows
  obtain ⟨hnil, hparse⟩ := hitems _ hitem
  have hleft : split g "\u00a0" = .ok [] := hnil.mpr (List.forall_mem_singleton.mpr (by decide))
  rw [hcanonical] at hsame
  exact ⟨hshows, hleft, hparse hleft, hsame⟩

/-- A no-break space is left out of a series, although the reader refuses it. -/
theorem not_emptyExpression_noBreakSpace :
    split .hyphen "x;\u00a0" = .ok [⟨.var, .hyphen⟩] ∧
      ¬ ∀ item ∈ items "x;\u00a0".toList,
        (∃ f, Formula.parse .hyphen (String.ofList item) = .ok f) ∨
          Formula.parse .hyphen (String.ofList item) = .error (.parse .emptyExpression) := by
  refine ⟨by decide +kernel, fun h => ?_⟩
  have hitem : ['\u00a0'] ∈ items "x;\u00a0".toList := by decide
  have hparse : Formula.parse .hyphen (String.ofList ['\u00a0']) =
      .error (.lex (.unexpectedCharacter 0 '\u00a0')) := by decide +kernel
  obtain ⟨f, hf⟩ | hempty := h _ hitem
  · cases hparse.symm.trans hf
  · cases hparse.symm.trans hempty

end Series

end CurvePlot
