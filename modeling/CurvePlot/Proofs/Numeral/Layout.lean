import CurvePlot.Decimal.Layout
import CurvePlot.Proofs.Decimal.ReadBack
import CurvePlot.Proofs.Numeral.Literal

/-! Scanning written numbers.

Both layouts of a decimal are literals, and the literal is the decimal again, or the natural number
that has the same value. What follows must not go on with the literal, which is what `Ends` says. -/

namespace CurvePlot

namespace Numeral

variable {whole fraction es rest : List Char} {n : Int}

/-! ## Parts of a literal -/

theorem isDigit_toDigits {n : Nat} : ∀ c ∈ Nat.toDigits 10 n, c.isDigit :=
  fun _ => Nat.isDigit_of_mem_toDigits (by decide) (by decide)

theorem digits_toDigits (n : Nat) : Digits (Nat.toDigits 10 n) :=
  ⟨Nat.toDigits_ne_nil, isDigit_toDigits⟩

theorem power_integerText (n : Int) : Power ('e' :: Decimal.integerText n) n := by
  have hpow (s : List Char) (hs : IsSign s) :
      Power ('e' :: (s ++ Nat.toDigits 10 n.natAbs)) (signed s n.natAbs) := by
    have h := Power.some (.inl rfl) hs (digits_toDigits n.natAbs)
    rwa [Nat.ofDigitChars_ten_toDigits] at h
  rw [Decimal.integerText, Decimal.signed]
  by_cases hn : n < 0
  · have hvalue : signed ['-'] n.natAbs = n := by
      rw [signed, if_pos rfl]
      omega
    have h := hpow ['-'] (.inr (.inl rfl))
    rw [hvalue] at h
    simpa [hn] using h
  · have hvalue : signed [] n.natAbs = n := by
      rw [signed, if_neg (by decide)]
      omega
    have h := hpow [] (.inl rfl)
    rw [hvalue] at h
    simpa [hn] using h

/-! ## Layouts -/

/-- The text `cs` and no more is scanned from the front of `cs ++ rest`, with the value of `d`. -/
def Scans (cs : List Char) (d : Decimal) (rest : List Char) : Prop :=
  ∃ d', scan (cs ++ rest) = .literal d' cs rest ∧ d'.toFloat = d.toFloat

theorem Literal.scans {cs : List Char} {d d' : Decimal} (h : Literal cs d')
    (hd : d'.toFloat = d.toFloat) (hr : Ends rest) : Scans cs d rest :=
  ⟨d', (scan_literal h.scan).2 rest hr.stopsLike, hd⟩

theorem scans_whole {d : Decimal} (hw : Digits whole) (hp : Power es n)
    (hd : (decimal whole [] n).toFloat = d.toFloat) (h : Ends rest) : Scans (whole ++ es) d rest :=
  (Literal.mk (.whole hw) hp).scans hd h

theorem scans_point {d : Decimal} (hw : ∀ c ∈ whole, c.isDigit) (hf : Digits fraction)
    (hp : Power es n) (hc : Nat.ofDigitChars 10 (whole ++ fraction) 0 = d.coefficient)
    (he : n - fraction.length = d.exponent) (h : Ends rest) :
    Scans (whole ++ '.' :: (fraction ++ es)) d rest := by
  have hd : decimal whole fraction n = d := by rw [decimal, hc, he]
  have hscans := (Literal.mk (.point hw hf) hp).scans (congrArg Decimal.toFloat hd) h
  rwa [List.append_assoc, List.cons_append] at hscans

theorem isDigit_zeros (k : Nat) : ∀ c ∈ List.replicate k '0', c.isDigit := by
  intro c hc
  rw [List.eq_of_mem_replicate hc]
  rfl

theorem isDigit_append {cs cs' : List Char} (h : ∀ c ∈ cs, c.isDigit) (h' : ∀ c ∈ cs', c.isDigit) :
    ∀ c ∈ cs ++ cs', c.isDigit :=
  fun c hc => (List.mem_append.mp hc).elim (h c) (h' c)

variable (d : Decimal)

theorem digits_ne_nil : d.digits ≠ [] := Nat.toDigits_ne_nil

theorem isDigit_digits : ∀ c ∈ d.digits, c.isDigit := isDigit_toDigits

theorem ofDigitChars_digits : Nat.ofDigitChars 10 d.digits 0 = d.coefficient :=
  Nat.ofDigitChars_ten_toDigits

theorem ofDigitChars_zeros_digits (k : Nat) :
    Nat.ofDigitChars 10 (List.replicate k '0' ++ d.digits) 0 = d.coefficient := by
  rw [Nat.ofDigitChars_append, Nat.ofDigitChars_replicate_zero, Nat.mul_zero, ofDigitChars_digits]

/-- Zeros for the power of ten change the decimal, but not the number that it is read as. -/
theorem toFloat_digits_zeros (h : 0 ≤ d.exponent) :
    (decimal (d.digits ++ List.replicate d.exponent.toNat '0') [] 0).toFloat = d.toFloat := by
  rw [decimal, List.append_nil, Nat.ofDigitChars_append, Nat.ofDigitChars_replicate_zero,
    ofDigitChars_digits, Nat.mul_comm]
  refine (Decimal.toFloat_mul_ten_pow d.coefficient d.exponent.toNat).trans ?_
  rw [Int.toNat_of_nonneg h]

theorem scans_positional (h : Ends rest) : Scans d.positional d rest := by
  have hd := isDigit_digits d
  rw [Decimal.positional]
  dsimp only
  split
  · next he =>
    have hne := List.append_ne_nil_of_left_ne_nil (digits_ne_nil d)
      (List.replicate d.exponent.toNat '0')
    have hscans := scans_whole ⟨hne, isDigit_append hd (isDigit_zeros _)⟩ .none
      (toFloat_digits_zeros d he) h
    rwa [List.append_nil] at hscans
  · next he =>
    have hplaces : (0 : Int) - ((-d.exponent).toNat : Nat) = d.exponent := by omega
    split
    · next hlt =>
      have hlen : (d.digits.drop (d.digits.length - (-d.exponent).toNat)).length =
          (-d.exponent).toNat := by
        rw [List.length_drop]
        omega
      have hne := List.ne_nil_of_length_pos (hlen.symm ▸ (by omega : 0 < (-d.exponent).toNat))
      have hscans := scans_point (fun _ hc => hd _ (List.mem_of_mem_take hc))
        ⟨hne, fun _ hc => hd _ (List.mem_of_mem_drop hc)⟩ .none
        (by rw [List.take_append_drop, ofDigitChars_digits]) (by rw [hlen, hplaces]) h
      rwa [List.append_nil] at hscans
    · next hge =>
      have hlen : (List.replicate ((-d.exponent).toNat - d.digits.length) '0' ++ d.digits).length =
          (-d.exponent).toNat := by
        rw [List.length_append, List.length_replicate]
        omega
      have hscans : Scans (['0'] ++ '.' :: (List.replicate _ '0' ++ d.digits ++ [])) d rest :=
        scans_point (isDigit_zeros 1) ⟨List.append_ne_nil_of_right_ne_nil _ (digits_ne_nil d),
            isDigit_append (isDigit_zeros _) hd⟩ .none
          (ofDigitChars_zeros_digits d (_ + 1)) (by rw [hlen, hplaces]) h
      rwa [List.append_nil] at hscans

theorem scans_scientific (h : Ends rest) : Scans d.scientific d rest := by
  have hd := isDigit_digits d
  have hc := ofDigitChars_digits d
  have hp := power_integerText d.leadingPlace
  have hplace : d.leadingPlace = d.exponent + d.digits.length - 1 := rfl
  rw [Decimal.scientific]
  generalize d.leadingPlace = n at hp hplace
  cases hds : d.digits with
  | nil => exact absurd hds (digits_ne_nil d)
  | cons c cs =>
    rw [hds] at hd hc hplace
    have hw : ∀ c' ∈ [c], c'.isDigit := by
      intro c' hc'
      exact hd c' (List.mem_singleton.mp hc' ▸ List.mem_cons_self)
    cases cs with
    | nil =>
      have he : n = d.exponent := by
        rw [hplace, List.length_singleton]
        omega
      have hdec : decimal [c] [] n = d := by
        rw [decimal, List.append_nil, hc, List.length_nil, he]
        simp
      exact scans_whole ⟨List.cons_ne_nil c [], hw⟩ hp (by rw [hdec]) h
    | cons c' cs =>
      have he : n - (c' :: cs).length = d.exponent := by
        rw [hplace, List.length_cons (a := c)]
        omega
      have hf : Digits (c' :: cs) :=
        ⟨List.cons_ne_nil c' cs, fun c'' h => hd c'' (List.mem_cons_of_mem _ h)⟩
      exact scans_point hw hf hp hc he h

end Numeral

end CurvePlot
