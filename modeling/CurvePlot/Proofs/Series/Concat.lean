import CurvePlot.Proofs.Formula.Position
import CurvePlot.Proofs.Series.Items

/-! Series that are put behind each other.

A text with a separator in it is read as the two texts beside it are. An error of the first one is that
of the whole, and one of the second is further back (`split_append`). -/

namespace CurvePlot

namespace Series

variable {g : Glyph} {index start : Nat} {item : List Char} {e : SeriesError}

/-! ## Errors -/

theorem isSpace_of_isBlank {c : Char} (h : Token.isBlank c = true) : Text.isSpace c = true := by
  obtain rfl | rfl | rfl | rfl := Token.isBlank_iff.mp h <;> decide

/-- An empty expression consists of blanks. -/
theorem isBlank_of_emptyExpression
    (h : Formula.parse g (String.ofList item) = .error (.parse .emptyExpression)) :
    ∀ c ∈ item, Token.isBlank c = true := by
  rw [Formula.parse_eq] at h
  obtain ⟨err, -, ⟨⟩⟩ | ⟨ts, err, hts, herr, ⟨⟩⟩ :=
    Expr.error_of_ofText (Except.map_eq_error.mp h)
  have hblank := (Token.partition_of_tokenize hts).isBlank_of_eof (Formula.foundIn_of_parse hts herr)
  rw [Glyph.toList_toCanonical, String.toList_ofList, List.forall_mem_map] at hblank
  intro c hc
  have hc := hblank c hc
  split at hc
  · exact absurd hc (by decide)
  · exact hc

/-- Only items that are left out are empty expressions. -/
theorem isBlankItem_of_emptyExpression
    (h : Formula.parse g (String.ofList item) = .error (.parse .emptyExpression)) :
    isBlankItem item = true :=
  List.all_eq_true.mpr fun c hc => isSpace_of_isBlank (isBlank_of_emptyExpression h c hc)

/-- An error stands inside the items, and its item is no empty expression. -/
theorem error_of_readItems {items : List (List Char)} (h : readItems g index start items = .error e) :
    e.offset < start + extent items ∧ e.cause ≠ .parse .emptyExpression := by
  obtain ⟨before, item, after, rfl, hitem, hparse, hoffset⟩ := exists_fault h
  have hle := (Formula.standsIn_of_parse hparse).1
  rw [String.length_ofList] at hle
  rw [extent_append, extent_cons]
  refine ⟨by omega, fun hcause => ?_⟩
  rw [hcause] at hparse
  exact Bool.eq_false_iff.mp hitem (isBlankItem_of_emptyExpression hparse)

/-- **Two texts with a separator between them are read as both are.** If the first one has an error, so
has the whole text; an error of the second one is further back, behind the formulas and the characters of
the first one. No error is behind the end of its text or about an empty expression. -/
theorem split_append (g : Glyph) (a b : String) :
    (∀ e, split g a = .error e → split g (a ++ separator.toString ++ b) = .error e) ∧
      (∀ fs, split g a = .ok fs →
        (∀ e, split g b = .error e → split g (a ++ separator.toString ++ b) =
          .error {
            index := fs.length + e.index
            offset := a.length + 1 + e.offset
            cause := e.cause }) ∧
        ∀ fs', split g b = .ok fs' → split g (a ++ separator.toString ++ b) = .ok (fs ++ fs')) ∧
      ∀ e, split g a = .error e → e.offset ≤ a.length ∧ e.cause ≠ .parse .emptyExpression := by
  have hitems : items (a ++ separator.toString ++ b).toList = items a.toList ++ items b.toList := by
    have hsep : separator.toString.toList = [separator] := rfl
    rw [String.toList_append, String.toList_append, hsep, List.append_assoc, List.singleton_append,
      items_append]
  have hextent : extent (items a.toList) = a.length + 1 := by
    rw [extent_items, String.length_toList]
  have hsplit : split g (a ++ separator.toString ++ b) = (split g a).bind fun fs =>
      ((split g b).mapError (.shift fs.length (a.length + 1))).map (fs ++ ·) := by
    simp only [split, hitems, readItems_append, hextent, ← readItems_shift, Nat.zero_add,
      Nat.add_zero]
  refine ⟨fun e h => ?_, fun fs h => ⟨fun e h' => ?_, fun fs' h' => ?_⟩, fun e h => ?_⟩
  · rw [hsplit, h]
    rfl
  · rw [hsplit, h, h']
    rfl
  · rw [hsplit, h, h']
    rfl
  · obtain ⟨hlt, hcause⟩ := error_of_readItems h
    rw [hextent] at hlt
    exact ⟨by omega, hcause⟩

/-- Blank items count as characters and not as formulas, and a minus sign is one character. -/
theorem split_append_blank :
    let g := Glyph.ofChar '−'
    split g "x; " = .ok [⟨.var, g⟩] ∧
      split g " ;x−y" = .error ⟨0, 4, .parse (.unknownIdentifier 2 "y")⟩ ∧
      split g "x; ; ;x−y" = .error ⟨1, 8, .parse (.unknownIdentifier 2 "y")⟩ := by
  intro g
  have ha : split g "x; " = .ok [⟨.var, g⟩] := by decide +kernel
  have hb : split g " ;x−y" = .error ⟨0, 4, .parse (.unknownIdentifier 2 "y")⟩ := by decide +kernel
  exact ⟨ha, hb, ((split_append g "x; " " ;x−y").2.1 _ ha).1 _ hb⟩

end Series

end CurvePlot
