import CurvePlot.Canvas.Text
import CurvePlot.Proofs.Binary64.Special
import CurvePlot.Proofs.Decimal.Width
import CurvePlot.Proofs.Numeral.Layout
import CurvePlot.Proofs.Token.Alphabet

/-! The labels of rows and of the ends of the window.

A written number consists of letters, digits, points and signs (`inNumber_label`), so that it neither ends
a line nor holds a bar. A label fits into the gutter unless the number is written to three places and has
six digits before the point and a sign, or seven digits that it is rounded to (`length_label_le_iff`). -/

namespace CurvePlot

open Binary64

variable {c mark : Char} {v : Float}

/-! ## Characters -/

namespace Numeral

/-- The characters of written numbers. -/
def InNumber (c : Char) : Prop := c.isAlphanum = true ∨ c ∈ ['.', '-', '+']

instance : DecidablePred InNumber := fun _ => inferInstanceAs (Decidable (_ ∨ _))

theorem InLiteral.inNumber (h : InLiteral c) : InNumber c := by
  obtain hd | (rfl | rfl) | hc := h
  · exact .inl (by rw [Char.isAlphanum, hd, Bool.or_true])
  · exact .inl (by decide)
  · exact .inl (by decide)
  · exact .inr hc

theorem Scans.inNumber {cs : List Char} {d : Decimal} (h : Scans cs d []) : ∀ c ∈ cs, InNumber c := by
  obtain ⟨d', hscan, -⟩ := h
  exact fun c hc => ((scan_literal hscan).1.inLiteral c hc).inNumber

theorem inNumber_positional (d : Decimal) : ∀ c ∈ d.positional, InNumber c :=
  (scans_positional d .nil).inNumber

theorem inNumber_scientific (d : Decimal) : ∀ c ∈ d.scientific, InNumber c :=
  (scans_scientific d .nil).inNumber

theorem inNumber_signed {cs : List Char} (negative : Bool) (h : ∀ c ∈ cs, InNumber c) :
    ∀ c ∈ Decimal.signed negative cs, InNumber c := by
  cases negative with
  | false => exact h
  | true => exact List.forall_mem_cons.mpr ⟨.inr (by decide), h⟩

theorem inNumber_write {f : Nat → List Char} (h : ∀ n, ∀ c ∈ f n, InNumber c) (x : Float) :
    ∀ c ∈ Decimal.write f x, InNumber c := by
  have hword {w : String} (hw : ∀ c ∈ w.toList, c.isAlphanum = true) : ∀ c ∈ w.toList, InNumber c :=
    fun c hc => .inl (hw c hc)
  rw [Decimal.write]
  split
  · exact hword (List.all_eq_true.mp rfl)
  · refine inNumber_signed _ ?_
    split
    · exact hword (List.all_eq_true.mp rfl)
    · exact h _

theorem inNumber_plain (x : Float) : ∀ c ∈ Decimal.plain x, InNumber c :=
  inNumber_write (fun _ => inNumber_positional _) x

end Numeral

namespace Canvas

theorem inNumber_label (v : Float) : ∀ c ∈ label v, Numeral.InNumber c := by
  rw [label]
  split
  · rw [Decimal.rounded_eq]
    exact Numeral.inNumber_write (fun _ => Numeral.inNumber_scientific _) v
  · exact Numeral.inNumber_write (fun _ => Numeral.inNumber_positional _) v

theorem notMem_label (h : ¬ Numeral.InNumber mark) (v : Float) : mark ∉ label v :=
  fun hmem => h (inNumber_label v mark hmem)

theorem notMem_window (h : ¬ Numeral.InNumber mark) (hmark : mark ∉ ['[', ',', ' ', ']']) (w : Window) :
    mark ∉ w.text.toList := by
  have hplain (x : Float) : mark ∉ Decimal.plain x := fun hmem =>
    h (Numeral.inNumber_plain x mark hmem)
  have hcomma : ", ".toList = [',', ' '] := rfl
  rw [Window.text, String.toList_ofList, hcomma]
  simp only [List.mem_cons, List.not_mem_nil, or_false, not_or] at hmark
  simp only [List.mem_append, List.mem_cons, List.not_mem_nil, hplain, hmark, or_self,
    not_false_eq_true]

/-! ## Width -/

/-- The number is written to three places, with more characters than the gutter has. -/
def Wide (v : Float) : Prop := 999999.9995 ≤ v ∧ v < 1e6 ∨ -1e6 < v ∧ v ≤ -99999.9995

instance : Decidable (Wide v) := inferInstanceAs (Decidable (_ ∨ _))

/-- The least magnitude that takes all of the gutter and more to three places. -/
def wideFrom (negative : Bool) : Nat := magnitude (if negative then 99999.9995 else 999999.9995)

theorem wide_iff (h : magnitude v ≤ infinity) :
    Wide v ↔ wideFrom (isNegative v) ≤ magnitude v ∧ magnitude v < magnitude 1e6 := by
  have hsix : magnitude 1e6 ≤ infinity ∧ isNegative 1e6 = false := by decide +kernel
  have hsix' : magnitude (-1e6) = magnitude 1e6 ∧ isNegative (-1e6) = true := by decide +kernel
  have hpos : magnitude 999999.9995 ≤ infinity ∧ isNegative 999999.9995 = false := by decide +kernel
  have hneg : magnitude (-99999.9995) = magnitude 99999.9995 ∧
      magnitude 99999.9995 ≤ infinity ∧ isNegative (-99999.9995) = true := by decide +kernel
  have hzero : 0 < magnitude 99999.9995 ∧ 0 < magnitude 999999.9995 ∧ 0 < magnitude 1e6 := by
    decide +kernel
  rw [Wide, le_iff_signed hpos.1 h, lt_iff_signed h hsix.1, lt_iff_signed (hsix'.1 ▸ hsix.1) h,
    le_iff_signed h (hneg.1 ▸ hneg.2.1), hsix.2, hsix'.1, hsix'.2, hpos.2, hneg.1, hneg.2.2, wideFrom]
  generalize magnitude v = n at *
  cases isNegative v <;> simp only [signed] <;> grind

theorem not_wide_of_nan (h : infinity < magnitude v) : ¬ Wide v := by
  rintro (⟨-, hlt⟩ | ⟨-, hle⟩)
  · exact nan_not_lt h hlt
  · exact nan_not_le h hle

/-- Which way a number is written is a matter of its magnitude. -/
theorem label_eq (h : magnitude v ≤ infinity) :
    label v = if magnitude v ≠ 0 ∧ ¬ (magnitude 1e-3 ≤ magnitude v ∧ magnitude v < magnitude 1e6) then
      Decimal.rounded 2 v else Decimal.fixed 3 v := by
  have hsix : magnitude 1e6 ≤ infinity ∧ isNegative 1e6 = false := by decide +kernel
  have hthird : magnitude 1e-3 ≤ infinity ∧ isNegative 1e-3 = false := by decide +kernel
  have habs : magnitude v.abs = magnitude v ∧ isNegative v.abs = false := by
    rw [abs_eq h, magnitude_ofMagnitude h, isNegative_ofMagnitude h]
    exact ⟨rfl, rfl⟩
  have hle : 1e-3 ≤ v.abs ↔ magnitude 1e-3 ≤ magnitude v := by
    rw [le_iff_signed hthird.1 (habs.1 ▸ h), hthird.2, habs.1, habs.2]
    exact Int.ofNat_le
  have hlt : v.abs < 1e6 ↔ magnitude v < magnitude 1e6 := by
    rw [lt_iff_signed (habs.1 ▸ h) hsix.1, hsix.2, habs.1, habs.2]
    exact Int.ofNat_lt
  simp only [label, bne, beq_zero h, hle, hlt, ← decide_not, ← Bool.decide_and, decide_eq_true_eq]

theorem length_fixed_le_iff (h : magnitude v < infinity) :
    (Decimal.fixed 3 v).length ≤ gutter ↔ magnitude v < wideFrom (isNegative v) := by
  have hdigits {n k : Nat} (hk : 0 < k) : (Decimal.threePlaces n).digits.length ≤ k ↔
      (Decimal.threePlaces n).coefficient < 10 ^ k := Decimal.length_digits_le hk
  have hpos (negative : Bool) : wideFrom negative - 1 + 1 = wideFrom negative := by
    cases negative <;> decide +kernel
  rw [Decimal.length_fixed h, gutter]
  cases isNegative v with
  | false =>
    rw [← hpos false, ← Decimal.threePlaces_lt_iff (b := 10 ^ 9) (by decide +kernel) (by decide +kernel),
      ← hdigits (by decide), if_neg Bool.false_ne_true]
    omega
  | true =>
    rw [← hpos true, ← Decimal.threePlaces_lt_iff (b := 10 ^ 8) (by decide +kernel) (by decide +kernel),
      ← hdigits (by decide), if_pos rfl]
    omega

/-- Which labels fit into the gutter. -/
theorem length_label_le_iff (v : Float) : (label v).length ≤ gutter ↔ ¬ Wide v := by
  rcases Nat.lt_or_ge infinity (magnitude v) with hnan | h
  · refine iff_of_true ?_ (not_wide_of_nan hnan)
    rw [label]
    split <;> exact Nat.le_trans (Decimal.length_write_le (Nat.le_of_lt hnan)) (by decide)
  · rw [wide_iff h, label_eq h]
    have hsix : magnitude 1e6 < infinity := by decide +kernel
    have hinf := infinity_eq
    have hthird : 0 < magnitude 1e-3 := by decide +kernel
    have hwide : magnitude 1e-3 ≤ wideFrom (isNegative v) := by
      cases isNegative v <;> decide +kernel
    split
    · next hrounded =>
      exact iff_of_true (Decimal.length_rounded_le (Nat.pos_of_ne_zero hrounded.1)) (by omega)
    · next hfixed =>
      have hfinite : magnitude v < infinity := by omega
      rw [length_fixed_le_iff hfinite]
      omega

end Canvas

end CurvePlot
