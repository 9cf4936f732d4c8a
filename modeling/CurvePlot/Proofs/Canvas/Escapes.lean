import CurvePlot.Proofs.Canvas.Columns
import CurvePlot.Proofs.Canvas.Scale
import CurvePlot.Proofs.Formula.Canonical

/-! Texts in color and without it.

A text in color is the one without it, with escape sequences in between (`Colored`), and these can be
told from the rest as no other part of a text has an escape character in it: numbers and formulas are
written without one. So it is the same text once the sequences are removed (`strip_render`). -/

namespace CurvePlot.Canvas

variable {cs ds es fs : List Char}

/-! ## Escape sequences -/

/-- Removes the escape sequences of a text, each from `ESC [` to the next `m`. -/
def strip : List Char → List Char
  | [] => []
  | c :: cs =>
    if c = '\x1b' ∧ cs.head? = some '[' ∧ 'm' ∈ cs then strip (cs.dropWhile (· != 'm')).tail
    else c :: strip cs
termination_by cs => cs.length
decreasing_by
  · have hle := List.length_dropWhile_le (· != 'm') cs
    rw [List.length_tail, List.length_cons]
    omega
  · exact Nat.lt_succ_self _

theorem strip_cons {c : Char} (h : c ≠ '\x1b') : strip (c :: cs) = c :: strip cs := by
  rw [strip, if_neg fun hstart => h hstart.1]

theorem strip_escape {parameters : List Char} (h : 'm' ∉ parameters) :
    strip (escape parameters ++ cs) = strip cs := by
  have hopen : '\x1b' :: '[' :: (parameters ++ 'm' :: cs) = escape parameters ++ cs := by
    simp only [escape, List.cons_append, List.append_assoc, List.nil_append]
  have hnot : 'm' ∉ '[' :: parameters := List.not_mem_cons_of_ne_of_not_mem (by decide) h
  have hdrop : ('[' :: parameters ++ 'm' :: cs).dropWhile (· != 'm') = 'm' :: cs := by
    rw [List.dropWhile_append_of_pos fun c hc => bne_iff_ne.mpr (ne_of_mem_of_not_mem hc hnot)]
    exact List.dropWhile_cons_of_neg (by decide)
  rw [← hopen, strip, if_pos ⟨rfl, rfl, by simp⟩, ← List.cons_append, hdrop, List.tail_cons]

/-- The first text is the second one with escape sequences in between, and the second one has no escape
character. -/
inductive Colored : List Char → List Char → Prop
  | nil : Colored [] []
  | char {c : Char} {cs ds : List Char} : c ≠ '\x1b' → Colored cs ds → Colored (c :: cs) (c :: ds)
  | sequence {parameters cs ds : List Char} : 'm' ∉ parameters → Colored cs ds →
    Colored (escape parameters ++ cs) ds

namespace Colored

theorem plain (h : '\x1b' ∉ cs) : Colored cs cs := by
  induction cs with
  | nil => exact .nil
  | cons c cs ih =>
    rw [List.mem_cons, not_or] at h
    exact .char (Ne.symm h.1) (ih h.2)

theorem append (h : Colored cs ds) (h' : Colored es fs) : Colored (cs ++ es) (ds ++ fs) := by
  induction h with
  | nil => exact h'
  | char hc _ ih => exact .char hc ih
  | sequence hm _ ih =>
    rw [List.append_assoc]
    exact .sequence hm ih

theorem toList_append {a b a' b' : String} (h : Colored a.toList a'.toList)
    (h' : Colored b.toList b'.toList) : Colored (a ++ b).toList (a' ++ b').toList := by
  rw [String.toList_append, String.toList_append]
  exact h.append h'

theorem flatMap {α : Type} {f g : α → List Char} {xs : List α} (h : ∀ x ∈ xs, Colored (f x) (g x)) :
    Colored (xs.flatMap f) (xs.flatMap g) := by
  induction xs with
  | nil => exact .nil
  | cons x xs ih =>
    rw [List.forall_mem_cons] at h
    rw [List.flatMap_cons, List.flatMap_cons]
    exact h.1.append (ih h.2)

theorem strip_eq (h : Colored cs ds) : strip cs = ds := by
  induction h with
  | nil => rw [strip]
  | char hc _ ih => rw [strip_cons hc, ih]
  | sequence hm _ ih => rw [strip_escape hm, ih]

theorem notMem (h : Colored cs ds) : '\x1b' ∉ ds := by
  induction h with
  | nil => exact List.not_mem_nil
  | char hc _ ih => exact List.not_mem_cons_of_ne_of_not_mem (Ne.symm hc) ih
  | sequence _ _ ih => exact ih

end Colored

/-! ## Parts of a text -/

theorem notMem_digits {mark : Char} (h : mark.isDigit = false) (n : Nat) :
    mark ∉ Nat.toDigits 10 n := by
  intro hmem
  rw [Nat.isDigit_of_mem_toDigits (by decide) (Nat.le_refl 10) hmem] at h
  cases h

theorem m_notMem_colorParameters (color : Color) : 'm' ∉ colorParameters color := by
  have hdigits (n : Nat) : 'm' ∉ Nat.toDigits 10 n := notMem_digits (by decide) n
  have hstart : 'm' ∉ "38;2".toList := by decide
  -- unfolded by hand: an equation for it would first be checked by decoding the text in front
  delta colorParameters
  simp only [List.mem_append, List.mem_cons, hdigits, hstart]
  decide

/-- A dot is put between the sequences that set its weight and its color and one that resets them. -/
theorem colored_swatch (curve : Curve) : Colored (swatch true curve) (swatch false curve) := by
  have hreset : 'm' ∉ ['0'] := by decide
  have hdot : Colored (dot :: (escape ['0'] ++ [])) [dot] := .char (by decide) (.sequence hreset .nil)
  rw [List.append_nil] at hdot
  have hcolor := Colored.sequence (m_notMem_colorParameters curve.color) hdot
  rw [swatch, swatch, if_pos rfl, if_neg Bool.false_ne_true, List.append_assoc]
  cases curve.highlight with
  | none => exact hcolor
  | highlighted => exact .sequence (by decide) hcolor
  | obscured => exact .sequence (by decide) hcolor

theorem escape_notMem_alignRight (width : Nat) (h : '\x1b' ∉ cs) : '\x1b' ∉ alignRight width cs := by
  rw [alignRight, List.mem_append, List.mem_replicate, not_or]
  exact ⟨fun hblank => absurd hblank.2 (by decide), h⟩

theorem escape_notMem_footer (c : Canvas) (w : Window) : '\x1b' ∉ c.footer w := by
  have hlabel (v : Float) : '\x1b' ∉ label v := notMem_label (by decide) v
  simp only [footer, List.mem_append, List.mem_replicate, hlabel, escape_notMem_alignRight _ (hlabel _)]
  decide

theorem escape_notMem_display (f : Formula) : '\x1b' ∉ f.display.toList := by
  rw [Formula.display, Glyph.toDisplay, String.toList_map]
  intro hmem
  obtain ⟨c, hc, heq⟩ := List.mem_map.mp hmem
  split at heq
  · obtain hs | hs := f.glyph.safe
    · exact absurd (heq.symm.trans hs) (by decide)
    · rw [heq] at hs
      exact absurd hs (by decide)
  · obtain hnil | hb | hl := (Expr.lexed_text f.tree).mem c hc
    · exact List.not_mem_nil hnil
    · obtain rfl | rfl | rfl | rfl := Token.isBlank_iff.mp hb <;> exact absurd heq (by decide)
    · rw [heq] at hl
      exact absurd hl.toNat_bounds (by decide)

/-! ## The whole -/

/-- A cell in color is what it is without, a character of the axes even without a sequence. -/
theorem colored_shownText (c : Canvas) (p : Plot) (row column : Nat) :
    Colored (shownText { c with ansi := true } p row column)
      (shownText { c with ansi := false } p row column) := by
  have hsame : shown? { c with ansi := true } p row column =
      shown? { c with ansi := false } p row column := rfl
  rw [shownText, shownText, hsame]
  cases shown? { c with ansi := false } p row column with
  | some t => exact colored_swatch t.curve
  | none =>
    refine .plain fun hmem => ?_
    have haxis := axisMark_mem { c with ansi := true } p row column
    rw [← List.mem_singleton.mp hmem] at haxis
    exact absurd haxis (by decide)

theorem colored_line (c : Canvas) (p : Plot) (row : Nat) :
    Colored (line { c with ansi := true } p row) (line { c with ansi := false } p row) := by
  have hlabel : '\x1b' ∉ alignRight gutter (c.rowLabel p row) :=
    escape_notMem_alignRight _ (notMem_rowLabel (by decide) c p row)
  have hcells : Colored (rowCells { c with ansi := true } p row).flatten
      (rowCells { c with ansi := false } p row).flatten := by
    rw [rowCells, rowCells, ← List.flatMap_def, ← List.flatMap_def]
    exact .flatMap fun column _ => colored_shownText c p row column
  exact (Colored.plain hlabel).append (.char (by decide) (.char (by decide) hcells))

theorem colored_render (c : Canvas) (w : Window) (curves : List Curve) :
    Colored (render { c with ansi := true } w curves).toList
      (render { c with ansi := false } w curves).toList := by
  cases hp : c.plot? w curves with
  | none =>
    have hempty (ansi : Bool) : render { c with ansi := ansi } w curves = emptyText w :=
      render_eq_emptyText_iff.mpr hp
    rw [hempty, hempty]
    exact .plain (notMem_emptyText (by decide) (by decide) (by decide) w)
  | some p =>
    have hlines (ansi : Bool) : (render { c with ansi := ansi } w curves).toList =
        ((List.range c.rows).flatMap fun row => line { c with ansi := ansi } p row ++ ['\n']) ++
          c.footer w := toList_render hp
    have hrows (row : Nat) : Colored (line { c with ansi := true } p row ++ ['\n'])
        (line { c with ansi := false } p row ++ ['\n']) :=
      (colored_line c p row).append (.plain (by decide))
    rw [hlines, hlines]
    exact (Colored.flatMap fun row _ => hrows row).append (.plain (escape_notMem_footer c w))

theorem colored_legendLine (curve : Curve) (index : Nat) :
    Colored (legendLine true curve index).toList (legendLine false curve index).toList := by
  have hnumber : '\x1b' ∉ (index + 1).repr.toList := by
    rw [Nat.toList_repr]
    exact notMem_digits (by decide) _
  have hbefore : '\x1b' ∉ ("[" ++ (index + 1).repr ++ "] ").toList :=
    notMem_toList_append (notMem_toList_append (by decide) hnumber) (by decide)
  have hswatch : Colored (String.ofList (swatch true curve)).toList
      (String.ofList (swatch false curve)).toList := by
    rw [String.toList_ofList, String.toList_ofList]
    exact colored_swatch curve
  have hbetween : '\x1b' ∉ " ".toList := by decide
  have hremark : '\x1b' ∉ (remark curve).toList := by
    rw [remark]
    split
    · decide
    · split <;> decide
  have hend : '\x1b' ∉ "\n".toList := by decide
  have htext := ((Colored.plain hbefore).toList_append hswatch).toList_append (.plain hbetween)
  have hcurve := htext.toList_append (.plain (escape_notMem_display curve.formula))
  exact (hcurve.toList_append (.plain hremark)).toList_append (.plain hend)

theorem colored_legend (c : Canvas) (curves : List Curve) :
    Colored (legend { c with ansi := true } curves).toList
      (legend { c with ansi := false } curves).toList := by
  simp only [legend, String.toList_join, List.mapIdx_eq_zipIdx_map, List.flatMap_map]
  exact .flatMap fun x _ => colored_legendLine x.1 x.2

/-- **Colors are decoration.** Without its escape sequences, a picture in color is the picture without
color, and so is a legend. Both have no other escape characters. -/
theorem strip_render (c : Canvas) (w : Window) (curves : List Curve) :
    (strip (render { c with ansi := true } w curves).toList =
        (render { c with ansi := false } w curves).toList ∧
      '\x1b' ∉ (render { c with ansi := false } w curves).toList) ∧
      strip (legend { c with ansi := true } curves).toList =
        (legend { c with ansi := false } curves).toList ∧
      '\x1b' ∉ (legend { c with ansi := false } curves).toList := by
  have hrender := colored_render c w curves
  have hlegend := colored_legend c curves
  exact ⟨⟨hrender.strip_eq, hrender.notMem⟩, hlegend.strip_eq, hlegend.notMem⟩

end CurvePlot.Canvas
