import Mathlib
import CurvePlot.Proofs.Except
import CurvePlot.Series

/-! The items of a series, and how they are read one after the other.

The items of two texts with a separator between them are those of both (`items_append`). What is read
from items that stand further back, behind more formulas, is the same but for the places of errors
(`readItems_shift`), so that more items are read as both parts are (`readItems_append`). -/

namespace CurvePlot

/-- The same error, behind `index` more formulas and `offset` more characters. -/
def SeriesError.shift (index offset : Nat) (e : SeriesError) : SeriesError :=
  { index := index + e.index, offset := offset + e.offset, cause := e.cause }

namespace Series

variable {g : Glyph} {index start : Nat} {item : List Char} {rest : List (List Char)}

/-! ## Items -/

theorem items_eq_splitOn (cs : List Char) : items cs = cs.splitOn separator := by
  induction cs with
  | nil => rfl
  | cons c cs ih =>
    rw [items, ih, List.splitOn_cons_eq_if_modifyHead]
    by_cases hc : c = separator
    · rw [if_pos hc, if_pos (beq_iff_eq.mpr hc)]
    · rw [if_neg hc, if_neg (mt beq_iff_eq.mp hc)]
      obtain ⟨item, rest, hitems⟩ := List.exists_cons_of_ne_nil (List.splitOn_ne_nil separator cs)
      rw [hitems, List.modifyHead_cons]

theorem exists_items (cs : List Char) : ∃ item rest, items cs = item :: rest := by
  rw [items_eq_splitOn]
  exact List.exists_cons_of_ne_nil (List.splitOn_ne_nil separator cs)

/-- The number of characters that items take up, with a separator behind each. -/
def extent (items : List (List Char)) : Nat := (items.map (·.length + 1)).sum

theorem extent_cons : extent (item :: rest) = item.length + 1 + extent rest := List.sum_cons

theorem extent_append (items more : List (List Char)) :
    extent (items ++ more) = extent items + extent more := by
  rw [extent, List.map_append, List.sum_append]
  rfl

theorem items_append (a b : List Char) : items (a ++ separator :: b) = items a ++ items b := by
  simp only [items_eq_splitOn]
  exact List.splitOnP_append_cons a b (beq_self_eq_true separator)

theorem extent_items (cs : List Char) : extent (items cs) = cs.length + 1 := by
  induction cs with
  | nil => rfl
  | cons c cs ih =>
    obtain ⟨item, rest, hitems⟩ := exists_items cs
    rw [items, hitems, List.length_cons, ← ih, hitems]
    split
    · simp only [extent_cons, List.length_nil]
      omega
    · simp only [extent_cons, List.length_cons]
      omega

/-- The first item ends the text, or a separator ends it and the other items are those behind. -/
theorem items_eq_cons {cs : List Char} (h : items cs = item :: rest) :
    separator ∉ item ∧
      (rest = [] ∧ cs = item ∨ ∃ cs', cs = item ++ separator :: cs' ∧ items cs' = rest) := by
  induction cs generalizing item with
  | nil =>
    cases h
    exact ⟨List.not_mem_nil, .inl ⟨rfl, rfl⟩⟩
  | cons c cs ih =>
    rw [items] at h
    split at h
    · next hc =>
      cases h
      exact ⟨List.not_mem_nil, .inr ⟨cs, by rw [hc, List.nil_append], rfl⟩⟩
    · next hc =>
      obtain ⟨item', rest', hitems⟩ := exists_items cs
      rw [hitems] at h
      cases h
      obtain ⟨hmem, ⟨rfl, rfl⟩ | ⟨cs', rfl, hcs'⟩⟩ := ih hitems
      · exact ⟨List.not_mem_cons_of_ne_of_not_mem (Ne.symm hc) hmem, .inl ⟨rfl, rfl⟩⟩
      · exact ⟨List.not_mem_cons_of_ne_of_not_mem (Ne.symm hc) hmem, .inr ⟨cs', rfl, hcs'⟩⟩

theorem separator_not_mem_item {cs : List Char} (h : item ∈ items cs) : separator ∉ item := by
  generalize hitems : items cs = its at h
  induction its generalizing cs with
  | nil => cases h
  | cons first its ih =>
    obtain ⟨hfirst, hrest⟩ := items_eq_cons hitems
    obtain rfl | h := List.mem_cons.mp h
    · exact hfirst
    · obtain ⟨rfl, -⟩ | ⟨cs', -, hcs'⟩ := hrest
      · cases h
      · exact ih hcs' h

/-- An item begins behind as many characters as the items before it take up. -/
theorem exists_place {cs : List Char} {before after : List (List Char)}
    (h : items cs = before ++ item :: after) :
    ∃ front back, cs = front ++ item ++ back ∧ front.length = extent before := by
  induction before generalizing cs with
  | nil =>
    obtain ⟨-, ⟨-, rfl⟩ | ⟨cs', rfl, -⟩⟩ := items_eq_cons h
    · exact ⟨[], [], by rw [List.nil_append, List.append_nil], rfl⟩
    · exact ⟨[], separator :: cs', by rw [List.nil_append], rfl⟩
  | cons first before ih =>
    obtain ⟨-, ⟨hnil, -⟩ | ⟨cs', rfl, hcs'⟩⟩ := items_eq_cons h
    · exact absurd hnil (List.append_ne_nil_of_right_ne_nil _ (List.cons_ne_nil _ _))
    · obtain ⟨front, back, rfl, hlength⟩ := ih hcs'
      refine ⟨first ++ separator :: front, back, by simp, ?_⟩
      rw [List.length_append, List.length_cons, hlength, extent_cons]
      omega

/-! ## Reading on -/

theorem readItems_blank (h : isBlankItem item = true) :
    readItems g index start (item :: rest) = readItems g index (start + item.length + 1) rest := by
  rw [readItems, if_pos h]

theorem readItems_formula {f : Formula} (h : isBlankItem item = false)
    (hf : Formula.parse g (String.ofList item) = .ok f) :
    readItems g index start (item :: rest) =
      (readItems g (index + 1) (start + item.length + 1) rest).map (f :: ·) := by
  rw [readItems, h, hf]
  rfl

theorem readItems_fault {cause : ReadError} (h : isBlankItem item = false)
    (hf : Formula.parse g (String.ofList item) = .error cause) :
    readItems g index start (item :: rest) =
      .error { index, offset := start + cause.offset, cause } := by
  rw [readItems, h, hf]
  rfl

/-- An error is that of an item which is no formula. -/
theorem exists_fault {e : SeriesError} {items : List (List Char)}
    (h : readItems g index start items = .error e) :
    ∃ before item after, items = before ++ item :: after ∧ isBlankItem item = false ∧
      Formula.parse g (String.ofList item) = .error e.cause ∧
        e.offset = start + extent before + e.cause.offset := by
  fun_induction readItems g index start items with
  | case1 => cases h
  | case2 index start first rest hblank ih =>
    obtain ⟨before, item, after, rfl, hitem, hparse, hoffset⟩ := ih h
    refine ⟨first :: before, item, after, rfl, hitem, hparse, ?_⟩
    rw [hoffset, extent_cons]
    omega
  | case3 index start item rest hblank cause hf =>
    cases h
    exact ⟨[], item, rest, rfl, Bool.eq_false_iff.mpr hblank, hf, rfl⟩
  | case4 index start first rest hblank f hf ih =>
    obtain h | ⟨fs, -, ⟨⟩⟩ := Except.bind_eq_error.mp h
    obtain ⟨before, item, after, rfl, hitem, hparse, hoffset⟩ := ih h
    refine ⟨first :: before, item, after, rfl, hitem, hparse, ?_⟩
    rw [hoffset, extent_cons]
    omega

/-- Further back, behind more formulas, items are read as before, but for the places of errors. -/
theorem readItems_shift (i n : Nat) (items : List (List Char)) :
    readItems g (index + i) (start + n) items =
      (readItems g i n items).mapError (.shift index start) := by
  fun_induction readItems g i n items with
  | case1 => rfl
  | case2 i n item rest hblank ih =>
    rw [readItems_blank hblank, ← ih]
    congr 1
    omega
  | case3 i n item rest hblank cause hf =>
    rw [readItems_fault (Bool.eq_false_iff.mpr hblank) hf, Nat.add_assoc]
    rfl
  | case4 i n item rest hblank f hf ih =>
    have hstart : start + n + item.length + 1 = start + (n + item.length + 1) := by omega
    rw [readItems_formula (Bool.eq_false_iff.mpr hblank) hf, hstart, Nat.add_assoc, ih]
    cases readItems g (i + 1) (n + item.length + 1) rest <;> rfl

/-- More items are read behind the formulas of the first ones, unless these have an error. -/
theorem readItems_append (items more : List (List Char)) :
    readItems g index start (items ++ more) = (readItems g index start items).bind fun fs =>
      (readItems g (index + fs.length) (start + extent items) more).map (fs ++ ·) := by
  fun_induction readItems g index start items with
  | case1 index start => exact (congrFun Except.map_id _).symm
  | case2 index start item rest hblank ih =>
    have hstart : start + (item.length + 1 + extent rest) = start + item.length + 1 + extent rest := by
      omega
    rw [List.cons_append, readItems_blank hblank, ih, extent_cons, hstart]
  | case3 index start item rest hblank cause hf =>
    rw [List.cons_append, readItems_fault (Bool.eq_false_iff.mpr hblank) hf]
    rfl
  | case4 index start item rest hblank f hf ih =>
    have hstart : start + (item.length + 1 + extent rest) = start + item.length + 1 + extent rest := by
      omega
    rw [List.cons_append, readItems_formula (Bool.eq_false_iff.mpr hblank) hf, ih, extent_cons, hstart]
    cases readItems g (index + 1) (start + item.length + 1) rest with
    | error e => rfl
    | ok fs =>
      have hindex : index + (f :: fs).length = index + 1 + fs.length := by
        rw [List.length_cons]
        omega
      change ((readItems g _ _ more).map (fs ++ ·)).map (f :: ·) =
        (readItems g (index + (f :: fs).length) _ more).map (f :: fs ++ ·)
      rw [hindex, Except.map_map]
      rfl

end Series

end CurvePlot
