import CurvePlot.Proofs.Canvas.Labels
import CurvePlot.Proofs.Canvas.Rows

/-! The columns of a picture in its text.

Without color every cell is one character (`line_eq`), so a cell stands behind the label of its row, the
blank and the bar as far as it is from the first column. Labels are put to the right of the gutter, and
the rows are of one length if the labels of the first and the last one fit into it, which `render_columns`
says by the values at the top and the bottom. -/

namespace CurvePlot.Canvas

variable {c : Canvas} {w : Window} {curves : List Curve} {p : Plot} {row column : Nat}

/-! ## Characters of a row -/

/-- The character of a cell without color. -/
def plainMark (c : Canvas) (p : Plot) (row column : Nat) : Char :=
  match c.shown? p row column with
  | some _ => dot
  | none => c.axisMark p row column

/-- How many characters stand before the blank and the bar of a row. -/
def margin (c : Canvas) (p : Plot) (row : Nat) : Nat := max gutter (c.rowLabel p row).length

theorem length_alignRight (width : Nat) (cs : List Char) :
    (alignRight width cs).length = max width cs.length := by
  rw [alignRight, List.length_append, List.length_replicate]
  omega

theorem shownText_plain (hansi : c.ansi = false) (p : Plot) (row column : Nat) :
    c.shownText p row column = [c.plainMark p row column] := by
  rw [shownText, plainMark]
  cases c.shown? p row column with
  | none => rfl
  | some t => simp only [swatch, hansi, Bool.false_eq_true, if_false]

/-- A row without color has one character for each of its cells. -/
theorem line_eq (hansi : c.ansi = false) (p : Plot) (row : Nat) :
    c.line p row = alignRight gutter (c.rowLabel p row) ++ ' ' :: '|' ::
      (List.range c.columns).map (c.plainMark p row) := by
  have hcells : (c.rowCells p row).flatten = (List.range c.columns).map (c.plainMark p row) := by
    rw [rowCells, List.map_congr_left fun column _ => shownText_plain hansi p row column,
      ← List.flatMap_def, ← List.map_eq_flatMap]
  rw [line, hcells]

theorem length_line (hansi : c.ansi = false) (p : Plot) (row : Nat) :
    (c.line p row).length = c.margin p row + 2 + c.columns := by
  rw [line_eq hansi, List.length_append, length_alignRight, List.length_cons, List.length_cons,
    List.length_map, List.length_range, margin]
  omega

theorem line_get? (hansi : c.ansi = false) (p : Plot) (row : Nat) (h : column < c.columns) :
    (c.line p row)[c.margin p row + 2 + column]? = some (c.plainMark p row column) := by
  have hplace : c.margin p row + 2 + column - (alignRight gutter (c.rowLabel p row)).length =
      column + 1 + 1 := by
    rw [length_alignRight, ← margin]
    omega
  rw [line_eq hansi, List.getElem?_append_right (by rw [length_alignRight, ← margin]; omega), hplace,
    List.getElem?_cons_succ, List.getElem?_cons_succ, List.getElem?_map, List.getElem?_range h]
  rfl

theorem exists_cellAt (hrow : row < c.rows) (hcolumn : column < c.columns) :
    ∃ cell, c.cellAt p row column = some cell := by
  rw [cellAt_eq hrow hcolumn]
  cases ((drawingOrder p.curves).filter (c.fallsInto p row column)).getLast? with
  | none => exact ⟨_, rfl⟩
  | some t => exact ⟨_, rfl⟩

theorem cellText_cellAt (hansi : c.ansi = false) (hp : p.window = w ∧ p.curves = c.trace w curves)
    (hrow : row < c.rows) (hcolumn : column < c.columns) {cell : Cell}
    (hcell : c.cellAt p row column = some cell) :
    cellText false curves cell = [c.plainMark p row column] := by
  have htext := cellText_getD hp hrow hcolumn
  rw [cellAt, picture, List.getElem?_map, List.getElem?_range hcolumn] at hcell
  rw [Array.getD_eq_getD_getElem?, show (c.column p column)[row]? = _ from hcell, Option.getD_some,
    shownText_plain hansi, hansi] at htext
  exact htext

/-! ## Ends of lines -/

theorem axisMark_mem (c : Canvas) (p : Plot) (row column : Nat) :
    c.axisMark p row column ∈ ['+', '-', '|', ' '] := by
  rw [axisMark, axisCell]
  split
  · next heq => split at heq <;> cases heq <;> decide
  · decide

theorem notMem_rowLabel {mark : Char} (h : ¬ Numeral.InNumber mark) (c : Canvas) (p : Plot)
    (row : Nat) : mark ∉ c.rowLabel p row := by
  rw [rowLabel]
  split
  · exact notMem_label h p.hi
  · split
    · exact notMem_label h p.lo
    · exact List.not_mem_nil

theorem newline_notMem_line (hansi : c.ansi = false) (p : Plot) (row : Nat) :
    '\n' ∉ c.line p row := by
  have hmark (column : Nat) : c.plainMark p row column ≠ '\n' := by
    rw [plainMark]
    split
    · decide
    · have hmem := axisMark_mem c p row column
      intro heq
      rw [heq] at hmem
      revert hmem
      decide
  rw [line_eq hansi, alignRight]
  simp only [List.mem_append, List.mem_cons, List.mem_replicate, List.mem_map, not_or, not_and,
    not_exists]
  refine ⟨⟨fun _ => by decide, notMem_rowLabel (by decide) c p row⟩, by decide, by decide, ?_⟩
  exact fun column _ => hmark column

/-! ## The picture -/

/-- All rows are of one length if the labels fit into the gutter. -/
theorem margin_eq_gutter_iff (c : Canvas) (p : Plot) :
    (∀ row < c.rows, c.margin p row = gutter) ↔ ¬ Wide p.lo ∧ ¬ Wide p.hi := by
  have hrows := two_le_rows c
  have hfits (row : Nat) : c.margin p row = gutter ↔ (c.rowLabel p row).length ≤ gutter := by
    rw [margin]
    omega
  simp only [hfits, ← length_label_le_iff]
  constructor
  · intro h
    have hlast := h (c.rows - 1) (by omega)
    have hfirst := h 0 (by omega)
    rw [rowLabel, if_neg (by omega), if_pos rfl] at hlast
    rw [rowLabel, if_pos rfl] at hfirst
    exact ⟨hlast, hfirst⟩
  · rintro ⟨hlo, hhi⟩ row -
    rw [rowLabel]
    split
    · exact hhi
    · split
      · exact hlo
      · exact Nat.zero_le _

/-- **The columns of a picture.** The text of a picture without color is its rows, one a line, and the
line below them. In each row a cell stands behind the label, a blank, the bar and the cells to its left,
and a label shorter than the gutter is filled up to it. So all rows have the length of the gutter, two
characters and the columns, exactly if neither of the values at the bottom and the top has a label that
is wider than the gutter. -/
theorem render_columns (hansi : c.ansi = false) (hp : c.plot? w curves = some p) :
    ∃ lines : List (List Char),
      (c.render w curves).toList = (lines.flatMap fun cs => cs ++ ['\n']) ++ c.footer w ∧
        (lines.length = max c.height 2 ∧ ∀ cs ∈ lines, '\n' ∉ cs) ∧
        (∀ row cs, lines[row]? = some cs →
          cs.length = max gutter (c.rowLabel p row).length + 2 + max c.width 2 ∧
            ∀ column < max c.width 2, ∃ cell, c.cellAt p row column = some cell ∧
              cs[max gutter (c.rowLabel p row).length + 2 + column]?.toList =
                cellText false curves cell) ∧
        ((∀ cs ∈ lines, cs.length = gutter + 2 + max c.width 2) ↔ ¬ Wide p.lo ∧ ¬ Wide p.hi) := by
  obtain ⟨hwindow, hcurves, -⟩ := plot?_eq_some hp
  refine ⟨(List.range c.rows).map (c.line p), ?_, ⟨?_, ?_⟩, fun row cs hcs => ?_, ?_⟩
  · rw [toList_render hp, List.flatMap_map]
  · rw [List.length_map, List.length_range, rows]
  · intro cs hcs
    obtain ⟨row, -, rfl⟩ := List.mem_map.mp hcs
    exact newline_notMem_line hansi p row
  · rw [List.getElem?_map, Option.map_eq_some_iff] at hcs
    obtain ⟨row', hrow, rfl⟩ := hcs
    obtain ⟨hlt, rfl⟩ := List.getElem?_eq_some_iff.mp hrow
    rw [List.length_range] at hlt
    rw [List.getElem_range]
    refine ⟨length_line hansi p row, fun column hcolumn => ?_⟩
    obtain ⟨cell, hcell⟩ := exists_cellAt (p := p) hlt hcolumn
    refine ⟨cell, hcell, ?_⟩
    rw [cellText_cellAt hansi ⟨hwindow, hcurves⟩ hlt hcolumn hcell]
    exact congrArg Option.toList (line_get? hansi p row hcolumn)
  · rw [← margin_eq_gutter_iff c p, List.forall_mem_map]
    simp only [List.mem_range, length_line hansi]
    exact forall₂_congr fun row _ => by rw [columns]; omega

/-- A line through the origin, with labels that are filled up to the gutter. -/
theorem render_columns_line :
    let c : Canvas := ⟨8, 4, false⟩
    let w : Window := ⟨-2, 2⟩
    let curves : List Curve := [.new (.nth 0) ⟨.var, .hyphen⟩]
    ∃ lines : List (List Char),
      (c.render w curves).toList = (lines.flatMap fun cs => cs ++ ['\n']) ++ c.footer w ∧
        lines.length = 4 ∧ ∀ cs ∈ lines, cs.length = 20 := by
  intro c w curves
  have hsome : (c.plot? w curves).isSome = true := by decide +kernel
  obtain ⟨p, hp⟩ := Option.isSome_iff_exists.mp hsome
  have hnarrow : (c.plot? w curves).map (fun p => decide (¬ Wide p.lo ∧ ¬ Wide p.hi)) = some true := by
    decide +kernel
  rw [hp, Option.map_some, Option.some_inj, decide_eq_true_eq] at hnarrow
  obtain ⟨lines, htext, ⟨hlength, -⟩, -, hlined⟩ := render_columns rfl hp
  exact ⟨lines, htext, hlength, hlined.mpr hnarrow⟩

/-- The label `-200000.000` is wider than the gutter and moves the last row. -/
theorem not_lined_up_wide :
    let c : Canvas := ⟨8, 4, false⟩
    let w : Window := ⟨-200000, 200000⟩
    let curves : List Curve := [.new (.nth 0) ⟨.var, .hyphen⟩]
    w.check = .ok () ∧ ∃ lines : List (List Char),
      (c.render w curves).toList = (lines.flatMap fun cs => cs ++ ['\n']) ++ c.footer w ∧
        (∀ cs ∈ lines, '\n' ∉ cs) ∧ lines.map List.length = [20, 20, 20, 21] := by
  intro c w curves
  have hsome : (c.plot? w curves).isSome = true := by decide +kernel
  obtain ⟨p, hp⟩ := Option.isSome_iff_exists.mp hsome
  have hlengths : (c.plot? w curves).map (fun p => (List.range c.rows).map fun row =>
      (c.line p row).length) = some [20, 20, 20, 21] := by decide +kernel
  rw [hp, Option.map_some, Option.some_inj] at hlengths
  refine ⟨by decide +kernel, (List.range c.rows).map (c.line p), ?_, fun cs hcs => ?_, ?_⟩
  · rw [toList_render hp, List.flatMap_map]
  · obtain ⟨row, -, rfl⟩ := List.mem_map.mp hcs
    exact newline_notMem_line rfl p row
  · rw [List.map_map]
    exact hlengths

end CurvePlot.Canvas
