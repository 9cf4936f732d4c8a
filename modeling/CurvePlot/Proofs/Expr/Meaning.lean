import CurvePlot.Expr.Value
import CurvePlot.Proofs.Expr.RoundTrip

/-! The value of what was written.

A literal that no token stands for is written as an operation. `normal` puts these operations into
the tree, and changes neither its text (`chars_normal`) nor its values (`eval_normal`). -/

namespace CurvePlot.Expr

open Binary64

variable {v : Float} {a b : Expr}

/-! ## Literals -/

/-- A literal with a minus sign is written as the one without it, behind that sign. -/
theorem numberText_of_isNegative (h : magnitude v < infinity) (hs : isNegative v = true) :
    numberText v = '-' :: numberText (-v) := by
  have hle := Nat.le_of_lt h
  have hm := magnitude_neg hle hs
  have hneg : isNegative (-v) = false := (written_neg h hs).2
  have hzero : (-v != 0) = (v != 0) := by rw [bne, bne, beq_zero hle, beq_zero (hm ▸ hle), hm]
  have habs : (-v).abs = v.abs := by rw [abs_eq hle, abs_eq (hm ▸ hle), hm]
  have hwrite (f : Nat → List Char) : Decimal.write f v = '-' :: Decimal.write f (-v) := by
    simp only [Decimal.write, hm, hs, hneg, Nat.ne_of_lt h, if_neg (Nat.lt_asymm h)]
    rfl
  rw [numberText, numberText, if_neg (mt isNaN_iff.mp (by omega)),
    if_neg (mt isInf_iff.mp (by omega)), if_neg (mt isNaN_iff.mp (by omega)),
    if_neg (mt isInf_iff.mp (by omega)), hzero, habs]
  split <;> exact hwrite _

theorem chars_literal (v : Float) : (literal v).chars = numberText v := by
  rcases Nat.lt_trichotomy (magnitude v) infinity with h | h | h
  · rw [literal_of_lt h]
    split
    · next hs =>
      have hprecedence : (number (-v)).writtenPrecedence = 5 := by
        rw [writtenPrecedence_eq, normal, literal_of_written (written_neg h hs)]
        rfl
      rw [chars, enclose, hprecedence, numberText_of_isNegative h hs]
      rfl
    · rfl
  · rw [literal_of_eq h, eq_infinity h]
    cases isNegative v <;> decide +kernel
  · rw [literal_of_gt h, numberText, if_pos (isNaN_iff.mpr h)]
    decide +kernel

theorem eval_literal (v x : Float) : (literal v).eval x = v := by
  rcases Nat.lt_trichotomy (magnitude v) infinity with h | h | h
  · rw [literal_of_lt h]
    split
    · next hs => exact neg_neg_of_isNegative (Nat.le_of_lt h) hs
    · rfl
  · have hpos : (1 : Float) / 0 = ofMagnitude false infinity := by decide +kernel
    have hneg : -(1 : Float) / 0 = ofMagnitude true infinity := by decide +kernel
    rw [literal_of_eq h]
    conv_rhs => rw [eq_infinity h]
    cases isNegative v
    · exact hpos
    · exact hneg
  · have hzero : infinity < magnitude ((0 : Float) / 0) := by decide +kernel
    rw [literal_of_gt h]
    exact eq_of_gt hzero h

/-! ## Trees -/

theorem enclose_normal (floor : Nat) (a : Expr) (text : List Char) :
    enclose floor a.normal text = enclose floor a text := by
  rw [enclose, enclose, writtenPrecedence_eq, writtenPrecedence_eq, (plain_normal a).normal]

theorem chars_normal (a : Expr) : a.normal.chars = a.chars := by
  induction a with
  | number v => exact chars_literal v
  | var | const => rfl
  | neg a ih => rw [normal, chars, chars, enclose_normal, ih]
  | binary op a b iha ihb =>
    have hprecedence : (binary op a.normal b.normal).precedence = (binary op a b).precedence := by
      cases op <;> rfl
    simp only [normal, chars, hprecedence, enclose_normal, iha, ihb]
  | call f a ih => rw [normal, chars, chars, ih]

theorem eval_normal (a : Expr) (x : Float) : a.normal.eval x = a.eval x := by
  induction a with
  | number v => exact eval_literal v x
  | var | const => rfl
  | neg a ih => rw [normal, eval, eval, ih]
  | binary op a b iha ihb => rw [normal, eval, eval, iha, ihb]
  | call f a ih => rw [normal, eval, eval, ih]

/-- **Writing keeps the meaning.** A tree that is read from the canonical text of another, whatever
the literals of that one are, has the same canonical text and the same value everywhere. Equal values
have the same sign, also the zeros, and there is one value that is no number. -/
theorem eval_of_ofText_text (h : ofText a.text = .ok b) :
    b.text = a.text ∧ ∀ x, b.eval x = a.eval x := by
  have hb : b = a.normal := by
    rcases ofText_text a with ⟨-, hok⟩ | ⟨-, o, herror⟩
    · exact Except.ok.inj (h.symm.trans hok)
    · rw [h] at herror
      contradiction
  subst hb
  exact ⟨congrArg String.ofList (chars_normal a), eval_normal a⟩

/-- No literal of this tree is that of a token. -/
theorem eval_of_ofText_text_literals :
    let a : Expr :=
      .binary .add (.binary .pow (.number (-2)) (.number (-1 / 0)))
        (.binary .sub (.number (-0)) (.binary .mul (.number (0 / 0)) (.neg (.number (-1e-7)))))
    a.text.toList = "(-2)^(-1 / 0) + (-0 - 0 / 0 * --1e-7)".toList ∧
      ∃ b, ofText a.text = .ok b ∧ a ≠ b ∧ b.text = a.text ∧ ∀ x, b.eval x = a.eval x := by
  intro a
  have htext : a.text.toList = "(-2)^(-1 / 0) + (-0 - 0 / 0 * --1e-7)".toList := by decide +kernel
  have h : ofText a.text = .ok a.normal := Except.eq_ok_of_toOption (by decide +kernel)
  exact ⟨htext, _, h, by decide +kernel, eval_of_ofText_text h⟩

end CurvePlot.Expr
