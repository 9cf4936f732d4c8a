import CurvePlot.Proofs.Scanner.Moves

/-! Where the items of a source are.

The items that were dropped, those in the buffer and the rest are always the source (`Accounts`): every
operation keeps that (`Accounts.step`), and so does any number of them (`accounts_after`). So what a
scanner shows can be told from its source (`after_accounts`). -/

namespace CurvePlot

namespace Scanner

variable {α : Type} {s s' : Scanner α}

/-! ## Operations -/

/-- What can be done with a scanner, the last four with scanners of text only. -/
inductive Operation : Type → Type 1 where
  | next {α : Type} : Operation α
  | peek {α : Type} : Operation α
  | curr {α : Type} : Operation α
  | setPos {α : Type} (pos : Int) : Operation α
  | ignore {α : Type} : Operation α
  | extract {α : Type} : Operation α
  | accept {α : Type} [BEq α] (a : α) : Operation α
  | acceptAny {α : Type} [BEq α] (items : List α) : Operation α
  | skipAll {α : Type} [BEq α] (items : List α) : Operation α
  | extractString : Operation Char
  | skipBlanks : Operation Char
  | scanNumber : Operation Char
  | scanIdentifier : Operation Char

namespace Operation

/-- The scanner behind the operation. -/
def after : {α : Type} → Operation α → Scanner α → Scanner α
  | _, .next, s => s.next.2
  | _, .peek, s => s.peek.2
  | _, .curr, s => s
  | _, .setPos pos, s => (s.setPos pos).2
  | _, .ignore, s => s.ignore
  | _, .extract, s => s.extract.2
  | _, @accept _ _ a, s => (s.accept a).2
  | _, @acceptAny _ _ items, s => (s.acceptAny items).2
  | _, @skipAll _ _ items, s => (s.skipAll items).2
  | _, .extractString, s => s.extractString.2
  | _, .skipBlanks, s => s.skipBlanks.2
  | _, .scanNumber, s => s.scanNumber.2
  | _, .scanIdentifier, s => s.scanIdentifier.2

/-- The items that the operation drops. If it returns them, they are taken from its result. -/
def dropped : {α : Type} → Operation α → Scanner α → List α
  | _, .ignore, s => s.view
  | _, .extract, s => s.extract.1
  | _, .extractString, s => s.extractString.1.toList
  | _, .skipBlanks, s => (s.skipWhile Token.isBlank).2.view
  | _, .scanNumber, s => (s.scanNumber.1.map Scanned.chars).getD []
  | _, .scanIdentifier, s => (s.scanIdentifier.1.map String.toList).getD []
  | _, _, _ => []

/-- The operation looks at items without taking any, by its nature or in vain. -/
def OnlyLooks : {α : Type} → Operation α → Scanner α → Prop
  | _, .peek, _ | _, .curr, _ => True
  | _, .setPos pos, s => (s.setPos pos).1 = false
  | _, @accept _ _ a, s => (s.accept a).1 = none
  | _, @acceptAny _ _ items, s => (s.acceptAny items).1 = none
  | _, @skipAll _ _ items, s => (s.skipAll items).1 = false
  | _, .scanNumber, s => s.scanNumber.1 = none
  | _, .scanIdentifier, s => s.scanIdentifier.1 = none
  | _, _, _ => False

end Operation

/-- Every operation is a move, or a move and a drop. -/
theorem step_after (o : Operation α) (s : Scanner α) : s.Step (o.dropped s) (o.after s) := by
  cases o with
  | next => exact .moves .next
  | peek => exact .moves (.lookAhead 1)
  | curr => exact .moves .refl
  | setPos pos => exact .moves (.setPos pos)
  | ignore | extract => exact .drops .refl
  | accept | acceptAny => exact .moves .acceptIf
  | skipAll => exact .moves .skipWhile
  | extractString => exact Moves.refl.extractString
  | skipBlanks => exact .drops .skipWhile
  | scanNumber => exact finds_scanNumber.step
  | scanIdentifier => exact finds_scanIdentifier.step

/-- An operation that only looks drops nothing, and the cursor is where it was. -/
theorem stays_of_onlyLooks {o : Operation α} (h : o.OnlyLooks s) :
    o.dropped s = [] ∧ (o.after s).cursor = s.cursor := by
  cases o with
  | peek | curr => exact ⟨rfl, rfl⟩
  | setPos pos => exact ⟨rfl, congrArg cursor (setPos_of_false h)⟩
  | accept | acceptAny => exact ⟨rfl, cursor_acceptIf h⟩
  | skipAll => exact ⟨rfl, cursor_skipWhile h⟩
  | scanNumber =>
    have h : s.scanNumber.1 = none := h
    refine ⟨?_, finds_scanNumber.cursor_eq h⟩
    rw [Operation.dropped, h]
    rfl
  | scanIdentifier =>
    have h : s.scanIdentifier.1 = none := h
    refine ⟨?_, finds_scanIdentifier.cursor_eq h⟩
    rw [Operation.dropped, h]
    rfl
  | next | ignore | extract | extractString | skipBlanks => exact h.elim

/-! ## The account of the items -/

/-- The items of the source are those that are gone, those in the buffer and the rest. -/
structure Accounts (source gone : List α) (s : Scanner α) : Prop where
  items : gone ++ (s.buffer ++ s.rest) = source
  offset : s.offset = gone.length
  cursor_le : s.cursor ≤ s.buffer.length + 1

namespace Accounts

variable {source gone more : List α}

theorem ofList : Accounts source [] (ofList source) := ⟨rfl, rfl, Nat.zero_le _⟩

theorem moves (h : Accounts source gone s) (hm : s.Moves s') : Accounts source gone s' :=
  ⟨hm.items_eq ▸ h.items, hm.offset_eq.trans h.offset, hm.cursor_le h.cursor_le⟩

theorem ignore (h : Accounts source gone s) : Accounts source (gone ++ s.view) s.ignore where
  items := by
    rw [← h.items, List.append_assoc, view, Scanner.ignore, ← List.append_assoc (List.take _ _),
      List.take_append_drop]
  offset := by rw [Scanner.ignore, h.offset, List.length_append]
  cursor_le := Nat.zero_le _

theorem step (h : Accounts source gone s) (hs : s.Step more s') :
    Accounts source (gone ++ more) s' := by
  cases hs with
  | moves hm => exact (List.append_nil gone).symm ▸ h.moves hm
  | drops hm => exact (h.moves hm).ignore

theorem drop_eq (h : Accounts source gone s) : source.drop s.offset = s.buffer ++ s.rest := by
  rw [← h.items, h.offset, List.drop_left]

theorem view_isPrefix (h : Accounts source gone s) : s.view <+: source.drop s.offset := by
  rw [h.drop_eq]
  exact (List.take_prefix _ _).trans (List.prefix_append _ _)

/-- The item behind the cursor is accepted, or the source is over and the cursor stands behind the
buffer. -/
theorem next (h : Accounts source gone s) :
    match s.next with
    | (some a, s') => source[(s.offset + s.pos + 1).toNat]? = some a ∧ s'.pos = s.pos + 1
    | (none, s') => source.length ≤ s.offset + s.pos + 1 ∧ s'.pos = s'.buffer.length := by
  have hplace : s.offset + s.pos + 1 = (s.offset + s.cursor : Nat) := by
    rw [pos]
    omega
  have hget : source[s.offset + s.cursor]? = (s.buffer ++ s.rest)[s.cursor]? := by
    rw [← h.drop_eq, List.getElem?_drop]
  have hlength := length_buffer_lookAhead (s := s) (n := 1)
  rw [hplace, Int.toNat_natCast, hget, next_eq]
  cases hs : (s.buffer ++ s.rest)[s.cursor]? with
  | some a =>
    have hlt := (List.getElem?_eq_some_iff.mp hs).1
    rw [List.length_append] at hlt
    refine ⟨rfl, ?_⟩
    simp only [pos]
    omega
  | none =>
    have hle := List.getElem?_eq_none_iff.mp (hget.trans hs)
    have hle' := List.getElem?_eq_none_iff.mp hs
    rw [List.length_append] at hle'
    refine ⟨Int.ofNat_le.mpr hle, ?_⟩
    simp only [pos]
    omega

end Accounts

/-- The scanner behind some operations. -/
def after (ops : List (Operation α)) (s : Scanner α) : Scanner α :=
  ops.foldl (fun s o => o.after s) s

/-- The items that some operations drop. -/
def dropped : List (Operation α) → Scanner α → List α
  | [], _ => []
  | o :: ops, s => o.dropped s ++ dropped ops (o.after s)

theorem accounts_after {source gone : List α} (ops : List (Operation α))
    (h : Accounts source gone s) : Accounts source (gone ++ dropped ops s) (after ops s) := by
  induction ops generalizing gone s with
  | nil => exact (List.append_nil gone).symm ▸ h
  | cons o ops ih =>
    have hops := ih (h.step (step_after o s))
    rwa [List.append_assoc] at hops

/-- **No item is lost, repeated or moved.** Whatever was done with a scanner, the items that it dropped,
its buffer and the rest are the source, so that the offset counts the dropped ones. What was accepted
since is the source from there on, up to the cursor, and the next item is the one behind the cursor, or
none where the source is over. Looking at items changes neither the cursor nor the offset. -/
theorem after_accounts {α : Type} (source : List α) (ops : List (Operation α)) :
    let s := after ops (ofList source)
    let gone := dropped ops (ofList source)
    gone ++ (s.buffer ++ s.rest) = source ∧ s.offset = gone.length ∧
      -1 ≤ s.pos ∧ s.pos ≤ s.buffer.length ∧
      s.view <+: source.drop s.offset ∧ s.view.length = min (s.pos + 1) s.buffer.length ∧
      (match s.next with
        | (some a, s') => source[(s.offset + s.pos + 1).toNat]? = some a ∧ s'.pos = s.pos + 1
        | (none, s') => source.length ≤ s.offset + s.pos + 1 ∧ s'.pos = s'.buffer.length) ∧
      ∀ o : Operation α, o.OnlyLooks s → (o.after s).pos = s.pos ∧ (o.after s).offset = s.offset := by
  intro s gone
  have h : Accounts source gone s := accounts_after ops .ofList
  have hcursor := h.cursor_le
  refine ⟨h.items, h.offset, by rw [pos]; omega, by rw [pos]; omega, h.view_isPrefix, ?_, h.next,
    fun o ho => ?_⟩
  · rw [view, List.length_take, pos]
    omega
  · obtain ⟨hdropped, hplace⟩ := stays_of_onlyLooks ho
    have hafter := h.step (step_after o s)
    rw [hdropped, List.append_nil] at hafter
    exact ⟨by rw [pos, pos, hplace], hafter.offset.trans h.offset.symm⟩

/-- Behind `7+`, the point of `.e` is accepted and given back, since no digit follows it. -/
theorem after_accounts_point :
    let s := after [.scanNumber, .next] (ofList "7+.e".toList)
    dropped [.scanNumber, .next] (ofList "7+.e".toList) = ['7'] ∧ s.view = ['+'] ∧
      Operation.scanNumber.OnlyLooks s ∧
        (Operation.scanNumber.after s).pos = s.pos ∧ (Operation.scanNumber.after s).offset = 1 := by
  intro s
  have hlooks : Operation.scanNumber.OnlyLooks s := by
    change s.scanNumber.1 = none
    decide
  obtain ⟨-, -, -, -, -, -, -, hsame⟩ := after_accounts "7+.e".toList [.scanNumber, .next]
  exact ⟨by decide, by decide, hlooks, hsame _ hlooks⟩

/-- A cursor that was set behind the buffer passes an item that was not looked at yet, which is accepted
with the next one. -/
example : (after [.setPos 0, .next] (ofList [5, 6, 7])).view = [5, 6] := rfl

end Scanner

end CurvePlot
