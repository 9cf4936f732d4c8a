import CurvePlot.Proofs.Formula.Canonical
import CurvePlot.Proofs.Series.Items

/-! Series that are written and read back.

Canonical texts hold no separator and are not blank, so that the items of the text of a series are
the canonical texts again (`items_join`). They are read one after the other up to the first one that
does not read back (`split_join_ok`, `split_join_error`). -/

namespace CurvePlot

namespace Series

variable {g : Glyph} {f : Formula} {fs before after : List Formula} {cs : List Char}
  {ks : List Token.Kind}

theorem separator_not_mem (h : Lexed cs ks []) : separator ∉ cs := by
  intro hc
  obtain hnil | hb | hl := h.mem _ hc
  · exact List.not_mem_nil hnil
  · exact absurd hb (by decide)
  · exact Lexeme.not_inLexeme_semicolon hl

theorem isBlankItem_of_lexed (h : Lexed cs ks []) (hks : ks ≠ []) : isBlankItem cs = false := by
  obtain ⟨c, hc, hlex⟩ := h.exists_mem hks
  rw [isBlankItem, List.all_eq_false]
  exact ⟨c, hc, Bool.eq_false_iff.mp hlex.isSpace⟩

theorem isBlankItem_canonical (f : Formula) : isBlankItem f.canonical.toList = false :=
  isBlankItem_of_lexed (Expr.lexed_text f.tree) (Expr.nests_tokens f.tree.normal).derives.ne_nil

theorem items_join (h : fs ≠ []) : items (join fs).toList = fs.map fun f => f.canonical.toList := by
  have hsep : separator.toString.toList = [separator] := rfl
  rw [join, String.toList_intercalate, hsep, items_eq_splitOn, List.map_map]
  refine List.splitOn_intercalate separator ?_ (mt List.map_eq_nil_iff.mp h)
  rw [List.forall_mem_map]
  exact fun f _ => separator_not_mem (Expr.lexed_text f.tree)

/-- Canonical texts are read as the formulas that they belong to. -/
theorem readItems_canonical (h : ∀ f ∈ fs, f.tree.Plain ∧ f.ReadsBack) (index start : Nat) :
    readItems g index start (fs.map fun f => f.canonical.toList) =
      .ok (fs.map fun f => { f with glyph := g }) := by
  induction fs generalizing index start with
  | nil => rfl
  | cons f fs ih =>
    rw [List.forall_mem_cons] at h
    have hf : Formula.parse g (String.ofList f.canonical.toList) = .ok { f with glyph := g } := by
      rw [String.ofList_toList]
      exact Formula.parse_of_readsBack h.1.1 h.1.2 g
    rw [List.map_cons, readItems_formula (isBlankItem_canonical f) hf, ih h.2]
    rfl

theorem split_join_ok (h : ∀ f ∈ fs, f.tree.Plain ∧ f.ReadsBack) (g : Glyph) :
    split g (join fs) = .ok (fs.map fun f => { f with glyph := g }) := by
  by_cases hne : fs = []
  · subst hne
    rfl
  · rw [split, items_join hne, readItems_canonical h]

theorem split_join_error (h : ∀ f ∈ before, f.tree.Plain ∧ f.ReadsBack) (hf : f.tree.Plain)
    (hdeep : ¬f.ReadsBack) (g : Glyph) :
    ∃ offset o, split g (join (before ++ f :: after)) =
      .error { index := before.length, offset, cause := .parse (.tooDeep o) } := by
  obtain ⟨o, ho⟩ := Formula.parse_of_not_readsBack hf hdeep
  have hf : Formula.parse g (String.ofList f.canonical.toList) = .error (.parse (.tooDeep o)) := by
    rw [String.ofList_toList]
    exact ho g
  refine ⟨0 + extent (before.map fun f => f.canonical.toList) + o, o, ?_⟩
  rw [split, items_join (List.append_ne_nil_of_right_ne_nil _ (List.cons_ne_nil _ _)), List.map_append,
    List.map_cons, readItems_append, readItems_canonical h, Except.bind,
    readItems_fault (isBlankItem_canonical f) hf, List.length_map, Nat.zero_add before.length]
  rfl

end Series

end CurvePlot
