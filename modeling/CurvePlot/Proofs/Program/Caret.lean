import CurvePlot.Program
import CurvePlot.Proofs.Formula.Position
import CurvePlot.Proofs.Series.Items

/-! The caret under the fault of a series.

The fault of a series is that of one of its items (`Series.exists_fault_of_split`). Before the caret
stands all that comes before the fault, with blanks for everything but tabs (`beforeCaret_caret`). This is
what stands above it as long as the text before the fault is in one line (`map_blankOut_lastLine`). -/

namespace CurvePlot

namespace Text

variable {cs : List Char}

/-- The characters before the first line feed. -/
def firstLine (cs : List Char) : List Char := cs.takeWhile (· != '\n')

/-- The characters behind the last line feed. -/
def lastLine (cs : List Char) : List Char := cs.rtakeWhile (· != '\n')

/-- A blank as wide as the character: a tab for a tab, which ends in the same column then. -/
def blankOut (c : Char) : Char := if c = '\t' then '\t' else ' '

/-- The column behind a character in column `n`, where there are tab stops every `w` columns. -/
def advance (w n : Nat) (c : Char) : Nat :=
  if c = '\n' then 0 else if c = '\t' then (n / w + 1) * w else n + 1

/-- The column behind a text. -/
def column (w : Nat) (cs : List Char) : Nat := cs.foldl (advance w) 0

theorem firstLine_append {rest : List Char} (h : '\n' ∉ cs) :
    firstLine (cs ++ '\n' :: rest) = cs := by
  rw [firstLine, List.takeWhile_append_of_pos fun c hc => bne_iff_ne.mpr (ne_of_mem_of_not_mem hc h)]
  exact List.append_nil cs

theorem lastLine_eq_self : lastLine cs = cs ↔ '\n' ∉ cs := by
  rw [lastLine, List.rtakeWhile_eq_self_iff]
  simp only [bne_iff_ne]
  exact ⟨fun h hmem => h _ hmem rfl, fun h c hc => ne_of_mem_of_not_mem hc h⟩

theorem length_lastLine_lt (h : '\n' ∈ cs) : (lastLine cs).length < cs.length := by
  have hsuffix : lastLine cs <:+ cs := List.rtakeWhile_suffix _ cs
  refine hsuffix.length_le.lt_of_ne fun hlength => ?_
  exact lastLine_eq_self.mp (hsuffix.eq_of_length hlength) h

theorem blankOut_eq (c : Char) : blankOut c = '\t' ∧ c = '\t' ∨ blankOut c = ' ' ∧ c ≠ '\t' := by
  rw [blankOut]
  split
  · next h => exact .inl ⟨rfl, h⟩
  · next h => exact .inr ⟨rfl, h⟩

theorem not_mem_map_blankOut {c : Char} (hblank : c ≠ ' ') (htab : c ≠ '\t') :
    c ∉ cs.map blankOut := by
  intro hmem
  obtain ⟨d, -, rfl⟩ := List.mem_map.mp hmem
  obtain ⟨h, -⟩ | ⟨h, -⟩ := blankOut_eq d
  · exact htab h
  · exact hblank h

theorem advance_blankOut (w n : Nat) {c : Char} (h : c ≠ '\n') :
    advance w n (blankOut c) = advance w n c := by
  obtain ⟨hblank, rfl⟩ | ⟨hblank, htab⟩ := blankOut_eq c
  · rw [hblank]
  · rw [hblank, advance, advance, if_neg h, if_neg htab]
    rfl

/-- Blanks end in the column that the characters end in, unless there are line feeds among these. -/
theorem column_map_blankOut (w : Nat) (h : '\n' ∉ cs) : column w (cs.map blankOut) = column w cs := by
  rw [column, column, List.foldl_map]
  exact List.foldl_ext _ _ _ fun n c hc => advance_blankOut w n (ne_of_mem_of_not_mem hc h)

/-- The blanks for a whole text are those for its last line if that is all of it. -/
theorem map_blankOut_lastLine : cs.map blankOut = (lastLine cs).map blankOut ↔ '\n' ∉ cs := by
  refine ⟨fun h hmem => ?_, fun h => by rw [lastLine_eq_self.mpr h]⟩
  -- blanks do not tell what they stand for, only how many characters there are
  have hlength := congrArg List.length h
  rw [List.length_map, List.length_map] at hlength
  exact (length_lastLine_lt hmem).ne' hlength

end Text

open Text

variable {g : Glyph} {text : String} {e : SeriesError}

/-- The fault of a series is that of an item, whose place is counted from the start of the text. -/
theorem Series.exists_fault_of_split (h : split g text = .error e) :
    ∃ front item back, text.toList = front ++ item ++ back ∧ item ∈ items text.toList ∧
      Formula.parse g (String.ofList item) = .error e.cause ∧
        e.cause.offset ≤ item.length ∧ e.offset = front.length + e.cause.offset := by
  obtain ⟨before, item, after, hitems, -, hparse, hoffset⟩ := exists_fault h
  obtain ⟨front, back, htext, hlength⟩ := exists_place hitems
  have hmem : item ∈ items text.toList := by
    rw [hitems]
    exact List.mem_append_right _ List.mem_cons_self
  have hle := (Formula.standsIn_of_parse hparse).1
  rw [String.length_ofList] at hle
  exact ⟨front, item, back, htext, hmem, hparse, hle, by rw [hoffset, hlength, Nat.zero_add]⟩

/-- What is shown before the fault of a text, `indent` columns to the right. -/
def shownBefore (source : String) (indent : Nat) (e : SeriesError) : List Char :=
  List.replicate indent ' ' ++ source.toList.take e.offset

/-- What stands before the caret in the first line of a text. -/
def beforeCaret (cs : List Char) : List Char := (firstLine cs).takeWhile (· != '^')

theorem toList_caret (source : String) (indent : Nat) (e : SeriesError) :
    (caret source indent e).toList =
      (shownBefore source indent e).map blankOut ++ ['^'] ++ '\n' :: e.message.toList := by
  have hindent : (List.replicate indent ' ').map blankOut = List.replicate indent ' ' :=
    List.map_replicate
  rw [caret, String.toList_append, String.toList_ofList, shownBefore, List.map_append, hindent]
  simp only [List.append_assoc, List.cons_append, List.nil_append]
  rfl

theorem firstLine_caret (source : String) (indent : Nat) (e : SeriesError) :
    firstLine (caret source indent e).toList = (shownBefore source indent e).map blankOut ++ ['^'] := by
  rw [toList_caret]
  refine firstLine_append ?_
  rw [List.mem_append, not_or]
  exact ⟨not_mem_map_blankOut (by decide) (by decide), by decide⟩

theorem beforeCaret_caret (source : String) (indent : Nat) (e : SeriesError) :
    beforeCaret (caret source indent e).toList = (shownBefore source indent e).map blankOut := by
  have hno : '^' ∉ (shownBefore source indent e).map blankOut :=
    not_mem_map_blankOut (by decide) (by decide)
  rw [beforeCaret, firstLine_caret,
    List.takeWhile_append_of_pos fun c hc => bne_iff_ne.mpr (ne_of_mem_of_not_mem hc hno)]
  exact List.append_nil _

theorem lineFeed_mem_shownBefore (source : String) (indent : Nat) (e : SeriesError) :
    '\n' ∈ shownBefore source indent e ↔ '\n' ∈ source.toList.take e.offset := by
  rw [shownBefore, List.mem_append]
  refine or_iff_right fun hmem => ?_
  exact absurd (List.eq_of_mem_replicate hmem) (by decide)

/-- **Where the caret stands.** The fault is at the place of the item that the reader names. The caret
ends its line, and before it stand the blanks for what is above exactly if there is no line feed before
the fault; then it is in the column of the fault, wherever the tab stops are. -/
theorem caret_of_split (h : Series.split g text = .error e) (indent : Nat) :
    (∃ front item back, text.toList = front ++ item ++ back ∧ item ∈ Series.items text.toList ∧
        Formula.parse g (String.ofList item) = .error e.cause ∧
          e.cause.offset ≤ item.length ∧ e.offset = front.length + e.cause.offset) ∧
      firstLine (caret text indent e).toList = beforeCaret (caret text indent e).toList ++ ['^'] ∧
      (beforeCaret (caret text indent e).toList = (lastLine (shownBefore text indent e)).map blankOut ↔
        '\n' ∉ text.toList.take e.offset) ∧
      ('\n' ∉ text.toList.take e.offset → ∀ w,
        column w (beforeCaret (caret text indent e).toList) = column w (shownBefore text indent e)) := by
  rw [beforeCaret_caret, ← lineFeed_mem_shownBefore text indent e]
  exact ⟨Series.exists_fault_of_split h, firstLine_caret text indent e, map_blankOut_lastLine,
    fun hno w => column_map_blankOut w hno⟩

/-- The second item begins with a tab, behind which the fault is. -/
theorem caret_of_split_tab :
    let e : SeriesError := ⟨1, 5, .parse (.unexpectedToken 3 .operand .star)⟩
    Series.split .hyphen "x;\t2+*3" = .error e ∧
      beforeCaret (caret "x;\t2+*3" 3 e).toList = "     \t  ".toList ∧
      column 8 (beforeCaret (caret "x;\t2+*3" 3 e).toList) = 10 := by
  intro e
  have hsplit : Series.split .hyphen "x;\t2+*3" = .error e := by decide +kernel
  have hno : '\n' ∉ "x;\t2+*3".toList.take e.offset := by decide
  obtain ⟨-, -, hblanks, hcolumn⟩ := caret_of_split hsplit 3
  refine ⟨hsplit, (hblanks.mpr hno).trans (by decide), (hcolumn hno 8).trans (by decide)⟩

/-- Behind a line feed the caret stands too far to the right: all that came before is counted. -/
theorem caret_behind_lineFeed :
    let e : SeriesError := ⟨1, 3, .parse (.unexpectedToken 1 .operand .star)⟩
    Series.split .hyphen "x;\n*" = .error e ∧
      beforeCaret (caret "x;\n*" 0 e).toList = "   ".toList ∧
      beforeCaret (caret "x;\n*" 0 e).toList ≠ (lastLine (shownBefore "x;\n*" 0 e)).map blankOut := by
  intro e
  rw [beforeCaret_caret]
  exact ⟨by decide +kernel, by decide, by decide⟩

end CurvePlot
