import CurvePlot.Scanner.Text

/-! What one operation can do to a scanner.

The cursor is moved, with more of the source buffered than before (`Moves`), and everything that was
accepted may be dropped behind that (`Step`). Skipping items is accepting one after another
(`skipWhile_eq`), so that it keeps what accepting an item keeps (`skipWhile_induction`). What is found
in a text is dropped, and where nothing is found the cursor goes back (`Finds`). -/

namespace CurvePlot

namespace Scanner

variable {α : Type} {s s' s'' : Scanner α} {p : α → Bool} {a : α} {n : Nat}

/-! ## The buffer and the cursor -/

@[simp] theorem cursor_lookAhead : (s.lookAhead n).cursor = s.cursor := rfl

@[simp] theorem items_lookAhead :
    (s.lookAhead n).buffer ++ (s.lookAhead n).rest = s.buffer ++ s.rest := by
  rw [lookAhead, List.append_assoc, List.take_append_drop]

theorem length_buffer_lookAhead : (s.lookAhead n).buffer.length =
    max s.buffer.length (min (s.cursor + n) (s.buffer.length + s.rest.length)) := by
  simp only [lookAhead, List.length_append, List.length_take]
  omega

/-- The buffer holds the item behind the cursor once it was looked at. -/
theorem getElem?_buffer_lookAhead :
    (s.lookAhead 1).buffer[s.cursor]? = (s.buffer ++ s.rest)[s.cursor]? := by
  rw [← items_lookAhead (s := s) (n := 1)]
  by_cases h : s.cursor < (s.lookAhead 1).buffer.length
  · rw [List.getElem?_append_left h]
  · have hlen := length_buffer_lookAhead (s := s) (n := 1)
    have hitems := congrArg List.length (items_lookAhead (s := s) (n := 1))
    rw [List.length_append, List.length_append] at hitems
    rw [List.getElem?_eq_none (by omega), List.getElem?_eq_none (by rw [List.length_append]; omega)]

/-- An item is accepted if there is one behind the cursor. -/
theorem next_eq : s.next =
    ((s.buffer ++ s.rest)[s.cursor]?,
      { s.lookAhead 1 with cursor := min s.cursor (s.lookAhead 1).buffer.length + 1 }) := by
  have hcursor : min (s.cursor + 1) ((s.lookAhead 1).buffer.length + 1) =
      min s.cursor (s.lookAhead 1).buffer.length + 1 := by omega
  simp only [next, curr, cursor_lookAhead, hcursor, Nat.add_one_ne_zero, if_false,
    Nat.add_sub_cancel, ← getElem?_buffer_lookAhead]
  by_cases h : s.cursor ≤ (s.lookAhead 1).buffer.length
  · rw [Nat.min_eq_left h]
  · rw [Nat.min_eq_right (by omega), List.getElem?_eq_none (by omega), List.getElem?_eq_none (by omega)]

theorem next_fst : s.next.1 = s.unread.head? := by
  rw [next_eq, unread, List.head?_drop]

theorem acceptIf_eq : s.acceptIf p = if s.next.1.any p then s.next else (none, s.lookAhead 1) := by
  unfold acceptIf
  split
  · next a s' h => rw [h]; rfl
  · next h => rw [h]; rfl

/-- A scanner is given by its items, how many of them are buffered, and two numbers. -/
theorem ext_items (hoffset : s.offset = s'.offset) (hcursor : s.cursor = s'.cursor)
    (hitems : s.buffer ++ s.rest = s'.buffer ++ s'.rest)
    (hlength : s.buffer.length = s'.buffer.length) : s = s' := by
  obtain ⟨offset, buffer, rest, cursor⟩ := s
  cases s'
  cases hoffset
  cases hcursor
  obtain ⟨hbuffer, hrest⟩ := List.append_inj hitems hlength
  cases hbuffer
  cases hrest
  rfl

/-! ## Skipping is accepting again and again -/

/-- Looking ahead behind the next item is looking one item further. -/
theorem lookAhead_behind : Scanner.lookAhead { s.lookAhead 1 with cursor := s.cursor + 1 } n =
    { s.lookAhead (n + 1) with cursor := s.cursor + 1 } := by
  have hitems := congrArg List.length (items_lookAhead (s := s) (n := 1))
  rw [List.length_append, List.length_append] at hitems
  refine ext_items rfl rfl ?_ ?_
  · simp only [items_lookAhead]
  · simp only [length_buffer_lookAhead] at hitems ⊢
    omega

theorem unread_of_next (h : s.next = (some a, s')) :
    s.unread = a :: s'.unread ∧ s' = { s.lookAhead 1 with cursor := s.cursor + 1 } := by
  rw [next_eq, Prod.mk.injEq] at h
  obtain ⟨hget, rfl⟩ := h
  obtain ⟨hlt, rfl⟩ := List.getElem?_eq_some_iff.mp hget
  have hbuffered : s.cursor ≤ (s.lookAhead 1).buffer.length := by
    rw [List.length_append] at hlt
    rw [length_buffer_lookAhead]
    omega
  rw [Nat.min_eq_left hbuffered]
  refine ⟨?_, rfl⟩
  simp only [unread, items_lookAhead]
  exact List.drop_eq_getElem_cons hlt

theorem skipWhile_of_some (h : s.next = (some a, s')) (ha : p a = true) :
    s.skipWhile p = (true, (s'.skipWhile p).2) := by
  obtain ⟨hunread, hs'⟩ := unread_of_next h
  simp only [skipWhile, hunread, List.takeWhile_cons_of_pos ha, List.length_cons]
  generalize (s'.unread.takeWhile p).length = n
  subst hs'
  refine Prod.ext (bne_iff_ne.mpr n.succ_ne_zero) ?_
  rw [lookAhead_behind]
  simp only [mk.injEq, true_and, cursor_lookAhead]
  omega

theorem skipWhile_of_head (h : ∀ a ∈ s.unread.head?, p a = false) :
    s.skipWhile p = (false, s.lookAhead 1) := by
  have hnil : s.unread.takeWhile p = [] := by
    cases hs : s.unread with
    | nil => rfl
    | cons a as => exact List.takeWhile_cons_of_neg (Bool.eq_false_iff.mp (h a (by rw [hs]; rfl)))
  rw [skipWhile, hnil]
  rfl

/-- Skipping accepts items with the property as long as there is one. -/
theorem skipWhile_eq : s.skipWhile p =
    if (s.acceptIf p).1.isSome then (true, ((s.acceptIf p).2.skipWhile p).2)
    else (false, (s.acceptIf p).2) := by
  rw [acceptIf_eq]
  by_cases h : s.next.1.any p = true
  · obtain ⟨a, ha, hp⟩ := (Option.any_eq_true _ _).mp h
    rw [if_pos h, ha]
    exact skipWhile_of_some (Prod.ext ha rfl) hp
  · rw [if_neg h]
    refine skipWhile_of_head ?_
    rw [← next_fst]
    exact (Option.any_eq_false _ _).mp (Bool.eq_false_iff.mpr h)

theorem unread_of_accepted (h : (s.acceptIf p).1.isSome = true) :
    ∃ a, s.unread = a :: (s.acceptIf p).2.unread := by
  rw [acceptIf_eq] at h ⊢
  split at h
  · next hany =>
    obtain ⟨a, ha, -⟩ := (Option.any_eq_true _ _).mp hany
    rw [if_pos hany]
    exact ⟨a, (unread_of_next (Prod.ext ha rfl)).1⟩
  · cases h

/-- What accepting an item keeps, skipping items keeps. -/
theorem skipWhile_induction {P : Scanner α → Prop} (hP : ∀ s, P s → P (s.acceptIf p).2) (h : P s) :
    P (s.skipWhile p).2 := by
  induction hs : s.unread generalizing s with
  | nil =>
    rw [skipWhile_eq]
    split
    · next hsome =>
      obtain ⟨a, ha⟩ := unread_of_accepted hsome
      rw [ha] at hs
      cases hs
    · exact hP s h
  | cons a as ih =>
    rw [skipWhile_eq]
    split
    · next hsome =>
      obtain ⟨b, hb⟩ := unread_of_accepted hsome
      rw [hb] at hs
      exact ih (hP s h) (List.cons.inj hs).2
    · exact hP s h

/-! ## Moves and drops -/

/-- The cursor is moved, and items may have been buffered. -/
structure Moves (s s' : Scanner α) : Prop where
  offset_eq : s'.offset = s.offset
  items_eq : s'.buffer ++ s'.rest = s.buffer ++ s.rest
  length_le : s.buffer.length ≤ s'.buffer.length
  cursor_le : s.cursor ≤ s.buffer.length + 1 → s'.cursor ≤ s'.buffer.length + 1

/-- A move, behind which everything that was accepted may be dropped. -/
inductive Step (s : Scanner α) : List α → Scanner α → Prop where
  | moves {s₁ : Scanner α} : s.Moves s₁ → Step s [] s₁
  | drops {s₁ : Scanner α} : s.Moves s₁ → Step s s₁.view s₁.ignore

namespace Moves

theorem refl : s.Moves s := ⟨rfl, rfl, Nat.le_refl _, id⟩

theorem trans (h : s.Moves s') (h' : s'.Moves s'') : s.Moves s'' where
  offset_eq := h'.offset_eq.trans h.offset_eq
  items_eq := h'.items_eq.trans h.items_eq
  length_le := Nat.le_trans h.length_le h'.length_le
  cursor_le := h'.cursor_le ∘ h.cursor_le

theorem lookAhead (n : Nat) : s.Moves (s.lookAhead n) := by
  have hlength : s.buffer.length ≤ (s.lookAhead n).buffer.length := by
    rw [length_buffer_lookAhead]
    exact Nat.le_max_left _ _
  exact ⟨rfl, items_lookAhead, hlength, fun h => Nat.le_trans h (Nat.succ_le_succ hlength)⟩

theorem setCursor (h : n ≤ s.buffer.length + 1) : s.Moves { s with cursor := n } :=
  ⟨rfl, rfl, Nat.le_refl _, fun _ => h⟩

/-- The cursor may go back to where it was. -/
theorem back (h : s.Moves s') : s.Moves { s' with cursor := s.cursor } :=
  ⟨h.offset_eq, h.items_eq, h.length_le, fun hc => Nat.le_trans hc (Nat.succ_le_succ h.length_le)⟩

theorem next : s.Moves s.next.2 := by
  rw [next_eq]
  exact (lookAhead 1).trans (setCursor (Nat.succ_le_succ (Nat.min_le_right _ _)))

theorem acceptIf : s.Moves (s.acceptIf p).2 := by
  rw [acceptIf_eq]
  split
  · exact next
  · exact lookAhead 1

theorem skipWhile : s.Moves (s.skipWhile p).2 :=
  skipWhile_induction (fun _ h => h.trans acceptIf) refl

theorem setPos (pos : Int) : s.Moves (s.setPos pos).2 := by
  unfold Scanner.setPos
  split
  · exact refl
  · exact setCursor (by omega)

end Moves

theorem cursor_acceptIf (h : (s.acceptIf p).1 = none) : (s.acceptIf p).2.cursor = s.cursor := by
  rw [acceptIf_eq] at h ⊢
  split at h
  · next hany =>
    rw [h] at hany
    cases hany
  · next hany => rw [if_neg hany, cursor_lookAhead]

theorem setPos_of_false {pos : Int} (h : (s.setPos pos).1 = false) : (s.setPos pos).2 = s := by
  unfold setPos at h ⊢
  split at h
  · next hpos => rw [if_pos hpos]
  · cases h

theorem cursor_skipWhile (h : (s.skipWhile p).1 = false) : (s.skipWhile p).2.cursor = s.cursor := by
  have hn : (s.unread.takeWhile p).length = 0 := bne_eq_false_iff_eq.mp h
  rw [skipWhile, hn]
  rfl

/-! ## Numbers and names -/

/-- The characters that were taken for a number. -/
def Scanned.chars : Scanned → List Char
  | .ok text | .error text => text.toList

section text

variable {t t' : Scanner Char}

theorem Moves.extractString (h : t.Moves t') : t.Step t'.extractString.1.toList t'.ignore := by
  rw [Scanner.extractString, String.toList_ofList]
  exact .drops h

/-- What a scan gives: something with the characters `chars`, which are dropped, or nothing, with the
cursor where it was. -/
inductive Finds {β : Type} (t : Scanner Char) (chars : β → List Char) :
    Option β × Scanner Char → Prop where
  | found {b : β} {t₁ : Scanner Char} : t.Step (chars b) t₁ → Finds t chars (some b, t₁)
  | nothing {t₁ : Scanner Char} : t.Moves t₁ → t₁.cursor = t.cursor → Finds t chars (none, t₁)

namespace Finds

variable {β : Type} {chars : β → List Char} {r : Option β × Scanner Char}

theorem of_step {r : β × Scanner Char} (h : t.Step (chars r.1) r.2) :
    t.Finds chars (r.map some id) := .found h

theorem step (h : t.Finds chars r) : t.Step ((r.1.map chars).getD []) r.2 := by
  cases h with
  | found h => exact h
  | nothing h _ => exact .moves h

theorem cursor_eq (h : t.Finds chars r) (hr : r.1 = none) : r.2.cursor = t.cursor := by
  cases h with
  | found _ => cases hr
  | nothing _ h => exact h

end Finds

theorem Moves.scanPower (h : t.Moves t') : t.Step (Scanned.chars t'.scanPower.1) t'.scanPower.2 := by
  have hmark : t.Moves (t'.acceptAny ['e', 'E']).2 := h.trans .acceptIf
  unfold Scanner.scanPower
  generalize t'.acceptAny ['e', 'E'] = r at hmark
  obtain ⟨mark, t₁⟩ := r
  have hdigits : t.Moves ((t₁.acceptAny ['+', '-']).2.skipWhile Char.isDigit).2 :=
    (hmark.trans .acceptIf).trans .skipWhile
  dsimp only at hmark ⊢
  split
  · exact hmark.extractString
  · generalize (t₁.acceptAny ['+', '-']).2.skipWhile Char.isDigit = r at hdigits
    obtain ⟨digits, t₂⟩ := r
    dsimp only at hdigits ⊢
    split <;> exact hdigits.extractString

theorem finds_scanNumber : t.Finds Scanned.chars t.scanNumber := by
  have hwhole : t.Moves (t.skipWhile Char.isDigit).2 := .skipWhile
  have hnone : (t.skipWhile Char.isDigit).1 = false →
      (t.skipWhile Char.isDigit).2.cursor = t.cursor := cursor_skipWhile
  unfold scanNumber
  generalize t.skipWhile Char.isDigit = r at hwhole hnone
  obtain ⟨whole, t₁⟩ := r
  have hpoint : t.Moves (t₁.accept '.').2 := hwhole.trans .acceptIf
  have hrefused : (t₁.accept '.').1 = none → (t₁.accept '.').2.cursor = t₁.cursor := cursor_acceptIf
  dsimp only at hnone ⊢
  generalize t₁.accept '.' = r at hpoint hrefused
  obtain ⟨point, t₂⟩ := r
  have hfraction : t.Moves (t₂.skipWhile Char.isDigit).2 := hpoint.trans .skipWhile
  dsimp only at hpoint hrefused ⊢
  split
  · generalize t₂.skipWhile Char.isDigit = r at hfraction
    obtain ⟨fraction, t₃⟩ := r
    dsimp only at hfraction ⊢
    split
    · exact .of_step hfraction.scanPower
    · split
      · exact .found hfraction.extractString
      · exact .nothing hfraction.back rfl
  · next hpoint' =>
    split
    · exact .of_step hpoint.scanPower
    · next hwhole' =>
      have hcursor := hrefused (Option.not_isSome_iff_eq_none.mp hpoint')
      exact .nothing hpoint (hcursor.trans (hnone (Bool.eq_false_iff.mpr hwhole')))

theorem finds_scanIdentifier : t.Finds String.toList t.scanIdentifier := by
  have hname : t.Moves ((t.lookAhead 1).skipWhile Char.isAlphanum).2 :=
    (Moves.lookAhead 1).trans .skipWhile
  unfold scanIdentifier peek
  dsimp only
  split
  · generalize (t.lookAhead 1).skipWhile Char.isAlphanum = r at hname
    obtain ⟨name, t₁⟩ := r
    exact .found hname.extractString
  · exact .nothing (.lookAhead 1) rfl

end text

end Scanner

end CurvePlot
