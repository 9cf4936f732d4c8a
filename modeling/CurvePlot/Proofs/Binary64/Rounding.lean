import CurvePlot.Proofs.Binary64.Order

/-! Rounding in the core model.

`roundRatio` rounds a ratio to a natural number. The magnitude closest to a ratio is the ratio rounded
at the weight of its leading bits (`nearest_eq`), so that `nearest` is monotone (`nearest_mono`). The
core model drops the same bits one after the other and then packs what is left: `pack_roundWithAccuracy`
and `pack_round` state that this gives the number with the closest magnitude. -/

namespace CurvePlot.Binary64

open Float.Model (Format UnpackedFloat totalExponent)
open Float.Model.UnpackedFloat

/-! ## Ratios -/

/-- The natural number closest to `num / den`, the even one of two. -/
def roundRatio (num den : Nat) : Nat :=
  (accuracyOfFraction (num % den) den).roundToNearestEven (num / den)

section ratios

variable {num den num' den' : Nat}

/-- More than half of the way up goes up, and so does half of the way from an odd number. -/
theorem roundRatio_eq (hden : 0 < den) :
    roundRatio num den = num / den +
      if den < 2 * (num % den) + num / den % 2 then 1 else 0 := by
  rw [roundRatio, accuracyOfFraction]
  split
  · next h =>
    rw [h, if_neg (by omega)]
    rfl
  · rcases Nat.lt_trichotomy (2 * (num % den)) den with h | h | h
    · rw [Nat.compare_eq_lt.mpr h, if_neg (by omega)]
      rfl
    · rw [compare_eq_iff_eq.mpr h, Accuracy.roundToNearestEven]
      split <;> omega
    · rw [Nat.compare_eq_gt.mpr h, Accuracy.roundToNearestEven, if_pos (by omega)]

theorem div_le_div_of_ratio (hden : 0 < den) (hden' : 0 < den') (h : num * den' ≤ num' * den) :
    num / den ≤ num' / den' := by
  rw [Nat.le_div_iff_mul_le hden']
  refine Nat.le_of_mul_le_mul_right ?_ hden
  calc
    num / den * den' * den = num / den * den * den' := Nat.mul_right_comm ..
    _ ≤ num * den' := Nat.mul_le_mul_right _ (Nat.div_mul_le_self ..)
    _ ≤ num' * den := h

theorem roundRatio_mono (hden : 0 < den) (hden' : 0 < den') (h : num * den' ≤ num' * den) :
    roundRatio num den ≤ roundRatio num' den' := by
  rw [roundRatio_eq hden, roundRatio_eq hden']
  rcases Nat.lt_or_eq_of_le (div_le_div_of_ratio hden hden' h) with hlt | heq
  · split <;> omega
  · -- the remainders are in the order of the ratios
    have hmod : num % den * den' ≤ num' % den' * den := by
      have hnum := Nat.div_add_mod num den
      have hnum' := Nat.div_add_mod num' den'
      rw [← hnum, ← hnum', heq] at h
      linarith
    rw [heq]
    refine Nat.add_le_add_left ?_ _
    split
    · next hup =>
      have hup' : den' < 2 * (num' % den') + num' / den' % 2 := by
        have hparity := Nat.mod_two_eq_zero_or_one (num' / den')
        rcases hparity with hparity | hparity <;> rw [hparity] at hup ⊢ <;> nlinarith
      rw [if_pos hup']
    · exact Nat.zero_le _

theorem roundRatio_congr (hden : 0 < den) (hden' : 0 < den') (h : num * den' = num' * den) :
    roundRatio num den = roundRatio num' den' :=
  Nat.le_antisymm (roundRatio_mono hden hden' (Nat.le_of_eq h))
    (roundRatio_mono hden' hden (Nat.le_of_eq h.symm))

theorem div_eq_div_of_ratio (hden : 0 < den) (hden' : 0 < den') (h : num * den' = num' * den) :
    num / den = num' / den' :=
  Nat.le_antisymm (div_le_div_of_ratio hden hden' (Nat.le_of_eq h))
    (div_le_div_of_ratio hden' hden (Nat.le_of_eq h.symm))

/-! ## The closest magnitude -/

/-- The weight of the last bit that a ratio is rounded at. -/
def weight (num den : Nat) : Nat := (num / den).log2 - 52

/-- The bits at the front of a natural number. -/
theorem canonical_div {t k g : Nat} (hlt : t.log2 < 53 + k) (hle : g ≠ 0 → 52 + k ≤ t.log2) :
    Canonical (t / 2 ^ k) g := by
  constructor
  · rw [Nat.div_lt_iff_lt_mul (Nat.two_pow_pos _), ← Nat.pow_add]
    exact Nat.lt_of_lt_of_le Nat.lt_log2_self (Nat.pow_le_pow_right (by omega) hlt)
  · by_cases hg : g = 0
    · exact .inr hg
    · have hlog := hle hg
      have hne : t ≠ 0 := by
        rintro rfl
        rw [Nat.log2_zero] at hlog
        omega
      left
      rw [Nat.le_div_iff_mul_le (Nat.two_pow_pos _), ← Nat.pow_add]
      exact Nat.le_trans (Nat.pow_le_pow_right (by omega) hlog) (Nat.log2_self_le hne)

theorem canonical_weight (num den : Nat) :
    Canonical (num / (den * 2 ^ weight num den)) (weight num den) := by
  rw [← Nat.div_div_eq_div_mul]
  refine canonical_div ?_ fun hne => ?_ <;> rw [weight] at * <;> omega

theorem nearest_eq (hden : 0 < den) :
    nearest num den =
      min (weight num den * 2 ^ 52 + roundRatio num (den * 2 ^ weight num den)) infinity := by
  have hc := canonical_weight num den
  have hlt := hc.lt
  have hD : 0 < den * 2 ^ weight num den := Nat.mul_pos hden (Nat.two_pow_pos _)
  have hfloor : floorMagnitude (num / den) =
      weight num den * 2 ^ 52 + num / (den * 2 ^ weight num den) := by
    rw [floorMagnitude_eq, ← Nat.div_div_eq_div_mul, weight]
  have hnext : units (weight num den * 2 ^ 52 + (num / (den * 2 ^ weight num den) + 1)) =
      (num / (den * 2 ^ weight num den) + 1) * 2 ^ weight num den := by
    refine units_eq (by omega) ?_
    rcases hc.le with hle | hzero
    · exact .inl (by omega)
    · exact .inr hzero
  have hnum := Nat.div_add_mod num (den * 2 ^ weight num den)
  simp only [nearest, hfloor, hc.units, Nat.add_assoc, hnext, roundRatio_eq hD]
  congr 1
  generalize num / (den * 2 ^ weight num den) = m at *
  generalize num % (den * 2 ^ weight num den) = r at *
  generalize weight num den = g at *
  have hmid : (m * 2 ^ g + (m + 1) * 2 ^ g) * den = 2 * (den * 2 ^ g * m) + den * 2 ^ g := by ring
  rw [hmid]
  rcases Nat.lt_trichotomy (2 * r) (den * 2 ^ g) with h | h | h
  · rw [Nat.compare_eq_lt.mpr (by omega), if_neg Bool.false_ne_true, if_neg (by omega), Nat.add_zero]
  · rw [compare_eq_iff_eq.mpr (by omega)]
    by_cases hodd : m % 2 = 1
    · rw [if_pos (by simp only [decide_eq_true_eq]; omega), if_pos (by omega)]
    · rw [if_neg (by simp only [decide_eq_true_eq]; omega), if_neg (by omega), Nat.add_zero]
  · rw [Nat.compare_eq_gt.mpr (by omega), if_pos rfl, if_pos (by omega)]

theorem weight_eq {g : Nat} (h : Canonical (num / (den * 2 ^ g)) g) : weight num den = g := by
  obtain ⟨hlt, hle⟩ := h
  rw [← Nat.div_div_eq_div_mul, Nat.div_lt_iff_lt_mul (Nat.two_pow_pos _), ← Nat.pow_add] at hlt
  rw [← Nat.div_div_eq_div_mul, Nat.le_div_iff_mul_le (Nat.two_pow_pos _), ← Nat.pow_add] at hle
  have hlog : (num / den).log2 < 53 + g := by
    rcases Nat.eq_zero_or_pos (num / den) with hzero | hpos
    · rw [hzero, Nat.log2_zero]
      omega
    · exact (Nat.log2_lt (Nat.ne_of_gt hpos)).mpr hlt
  rw [weight]
  rcases hle with hle | rfl
  · have hne : num / den ≠ 0 := Nat.ne_of_gt (Nat.lt_of_lt_of_le (Nat.two_pow_pos _) hle)
    have hlog' : 52 + g ≤ (num / den).log2 := (Nat.le_log2 hne).mpr hle
    omega
  · omega

theorem nearest_mono (hden : 0 < den) (hden' : 0 < den') (h : num * den' ≤ num' * den) :
    nearest num den ≤ nearest num' den' := by
  rw [nearest_eq hden, nearest_eq hden']
  refine min_le_min_right _ ?_
  have hc := canonical_weight num den
  have hc' := canonical_weight num' den'
  have hweight : weight num den ≤ weight num' den' := by
    have hlog : (num / den).log2 ≤ (num' / den').log2 := by
      rw [Nat.log2_eq_log_two, Nat.log2_eq_log_two]
      exact Nat.log_mono_right (div_le_div_of_ratio hden hden' h)
    exact Nat.sub_le_sub_right hlog 52
  rcases Nat.lt_or_eq_of_le hweight with hlt | heq
  · have hD : 0 < den * 2 ^ weight num den := Nat.mul_pos hden (Nat.two_pow_pos _)
    have hD' : 0 < den' * 2 ^ weight num' den' := Nat.mul_pos hden' (Nat.two_pow_pos _)
    have hlt := hc.lt
    have hle' := hc'.le.resolve_right (by omega)
    rw [roundRatio_eq hD, roundRatio_eq hD']
    split <;> split <;> omega
  · rw [heq]
    refine Nat.add_le_add_left (roundRatio_mono ?_ ?_ ?_) _
    · exact Nat.mul_pos hden (Nat.two_pow_pos _)
    · exact Nat.mul_pos hden' (Nat.two_pow_pos _)
    · rw [← Nat.mul_assoc, ← Nat.mul_assoc]
      exact Nat.mul_le_mul_right _ h

theorem nearest_congr (hden : 0 < den) (hden' : 0 < den') (h : num * den' = num' * den) :
    nearest num den = nearest num' den' :=
  Nat.le_antisymm (nearest_mono hden hden' (Nat.le_of_eq h))
    (nearest_mono hden' hden (Nat.le_of_eq h.symm))

/-- How far away the closest magnitude can be: half a bit of 53 from the value, and one of them from the
magnitude below the value. -/
theorem exists_below_nearest (h : nearest num 1 < infinity) :
    ∃ n ≤ nearest num 1, units n ≤ num ∧ 2 ^ 53 * units (nearest num 1) ≤ (2 ^ 53 + 1) * num ∧
      2 ^ 52 * units (nearest num 1) ≤ (2 ^ 52 + 1) * units n := by
  have hc := canonical_weight num 1
  have hnum := Nat.div_add_mod num (1 * 2 ^ weight num 1)
  have hround := @roundRatio_eq num (1 * 2 ^ weight num 1) (by simp)
  rw [nearest_eq Nat.one_pos] at h ⊢
  generalize weight num 1 = g at *
  rw [Nat.one_mul] at *
  have hlt := hc.lt
  have hmod := Nat.mod_lt num (Nat.two_pow_pos g)
  generalize num / 2 ^ g = m at *
  generalize num % 2 ^ g = r at *
  -- with the least weight nothing is missing
  have hcases : roundRatio num (2 ^ g) = m ∨
      roundRatio num (2 ^ g) = m + 1 ∧ 2 ^ 52 * 2 ^ g ≤ m * 2 ^ g ∧ 2 ^ g ≤ 2 * r := by
    split at hround
    · next hup =>
      refine .inr ⟨hround, Nat.mul_le_mul_right _ (hc.le.resolve_right ?_), by omega⟩
      rintro rfl
      omega
    · exact .inl hround
  have hunits : units (min (g * 2 ^ 52 + roundRatio num (2 ^ g)) infinity) =
      roundRatio num (2 ^ g) * 2 ^ g := by
    rw [Nat.min_eq_left (by omega)]
    refine units_eq (by omega) ?_
    rcases hc.le with hle | hzero
    · exact .inl (by omega)
    · exact .inr hzero
  have hpos := Nat.zero_le (m * 2 ^ g)
  refine ⟨g * 2 ^ 52 + m, by omega, ?_, ?_, ?_⟩
  · rw [hc.units, Nat.mul_comm]
    omega
  · rw [hunits]
    rcases hcases with heq | ⟨heq, hle, hhalf⟩ <;> rw [heq] <;> linarith
  · rw [hunits, hc.units]
    rcases hcases with heq | ⟨heq, hle, -⟩ <;> rw [heq] <;> linarith

/-! ## Dropping bits -/

/-- A ratio, as the core model holds it: its integral part and whether at least half, and whether more
than that, is missing. -/
def extended (num den : Nat) : ExtendedMantissa :=
  .ofMantissaAndAccuracy (num / den) (accuracyOfFraction (num % den) den)

theorem extended_eq (hden : 0 < den) :
    extended num den = ⟨num / den, decide (den ≤ 2 * (num % den)),
      decide (num % den ≠ 0 ∧ 2 * (num % den) ≠ den)⟩ := by
  rw [extended, accuracyOfFraction]
  split
  · next h => simp [h, ExtendedMantissa.ofMantissaAndAccuracy, Nat.ne_of_gt hden]
  · next hne =>
    rcases Nat.lt_trichotomy (2 * (num % den)) den with h | h | h
    · rw [Nat.compare_eq_lt.mpr h]
      simp [ExtendedMantissa.ofMantissaAndAccuracy, hne, h, Nat.ne_of_lt h]
    · rw [compare_eq_iff_eq.mpr h]
      simp [ExtendedMantissa.ofMantissaAndAccuracy, h]
    · rw [Nat.compare_eq_gt.mpr h]
      simp [ExtendedMantissa.ofMantissaAndAccuracy, hne, Nat.le_of_lt h, Nat.ne_of_gt h]

theorem accuracy_extended (num den : Nat) :
    (extended num den).accuracy = accuracyOfFraction (num % den) den := by
  rw [extended]
  cases accuracyOfFraction (num % den) den with
  | exact => rfl
  | inexact o => cases o <;> rfl

theorem roundedMantissa_extended (hden : 0 < den) :
    (extended num den).roundedMantissa = roundRatio num den := by
  rw [ExtendedMantissa.roundedMantissa, accuracy_extended, extended_eq hden, roundRatio]

theorem shiftRightOne_extended (hden : 0 < den) :
    (extended num den).shiftRightOne = extended num (den * 2) := by
  have hlt : num % den < den := Nat.mod_lt _ hden
  have hmod : num % (den * 2) = num % den + den * (num / den % 2) := Nat.mod_mul
  rw [extended_eq hden, extended_eq (Nat.mul_pos hden Nat.two_pos), ExtendedMantissa.shiftRightOne,
    hmod, ← Nat.div_div_eq_div_mul]
  -- the bit that goes is the last one of the integral part
  rcases Nat.mod_two_eq_zero_or_one (num / den) with hbit | hbit
  · rw [hbit]
    congr 1 <;> rw [Bool.eq_iff_iff] <;> simp <;> omega
  · rw [hbit]
    congr 1 <;> rw [Bool.eq_iff_iff] <;> simp <;> omega

theorem shiftRight_extended (hden : 0 < den) (k : Nat) :
    extended num den >>> k = extended num (den * 2 ^ k) := by
  induction k with
  | zero =>
    rw [Nat.pow_zero, Nat.mul_one]
    rfl
  | succ k ih =>
    calc
      extended num den >>> (k + 1) = (extended num den >>> k).shiftRightOne := rfl
      _ = (extended num (den * 2 ^ k)).shiftRightOne := by rw [ih]
      _ = extended num (den * 2 ^ k * 2) :=
        shiftRightOne_extended (Nat.mul_pos hden (Nat.two_pow_pos k))
      _ = extended num (den * 2 ^ (k + 1)) := by rw [Nat.pow_succ, Nat.mul_assoc]

end ratios

/-! ## Packing -/

section packing

variable {num den m g a b : Nat} {e : Int} {negative : Bool}

theorem targetExponent_eq (t : Int) : Format.binary64.targetExponent t = max (t - 53) (-1074) := rfl

theorem shiftToTargetExponent_eq (hden : 0 < den) {k : Nat}
    (h : Format.binary64.targetExponent (totalExponent (num / den) e) = e + k) :
    shiftToTargetExponent .binary64 (num / den) e (accuracyOfFraction (num % den) den) =
      (extended num (den * 2 ^ k), e + k) := by
  have hk : (e + k - e).toNat = k := by omega
  rw [← shiftRight_extended hden, shiftToTargetExponent, h, shiftToExponent]
  simp only [hk]
  rfl

/-- The bits of a significand that has just been rounded. One bit goes where it became too long. -/
theorem exists_shiftToTargetExponent (hm : m ≤ 2 ^ 53) (hg : 2 ^ 52 ≤ m ∨ g = 0) :
    ∃ m' g', Canonical m' g' ∧ g' * 2 ^ 52 + m' = g * 2 ^ 52 + m ∧
      shiftToTargetExponent .binary64 m (g - 1074) .exact =
        (⟨m', false, false⟩, (g' - 1074 : Int)) := by
  have hshift (k : Nat) (h : Format.binary64.targetExponent (totalExponent m (g - 1074)) =
      (g - 1074 : Int) + k) :
      shiftToTargetExponent .binary64 m (g - 1074) .exact =
        (extended m (1 * 2 ^ k), (g - 1074 : Int) + k) := by
    rw [← Nat.div_one m] at h
    have hshift := shiftToTargetExponent_eq Nat.one_pos h
    rwa [Nat.div_one, Nat.mod_one] at hshift
  rcases Nat.lt_or_eq_of_le hm with hlt | rfl
  · refine ⟨m, g, ⟨hlt, hg⟩, rfl, ?_⟩
    have htarget : Format.binary64.targetExponent (totalExponent m (g - 1074)) =
        (g - 1074 : Int) + (0 : Nat) := by
      have hle : m.log2 ≤ 52 := by
        rcases Nat.eq_zero_or_pos m with rfl | hpos
        · exact Nat.zero_le _
        · exact Nat.lt_succ_iff.mp ((Nat.log2_lt (Nat.ne_of_gt hpos)).mpr hlt)
      rw [targetExponent_eq, totalExponent]
      rcases hg with hg | rfl
      · have hge : 52 ≤ m.log2 := (Nat.le_log2 (by omega)).mpr hg
        omega
      · omega
    rw [hshift 0 htarget, Nat.pow_zero, Nat.mul_one, extended_eq Nat.one_pos]
    simp [Nat.mod_one]
  · refine ⟨2 ^ 52, g + 1, ⟨by decide, .inl (Nat.le_refl _)⟩, by omega, ?_⟩
    have htarget : Format.binary64.targetExponent (totalExponent (2 ^ 53) (g - 1074)) =
        (g - 1074 : Int) + (1 : Nat) := by
      rw [targetExponent_eq, totalExponent, Nat.log2_two_pow]
      omega
    rw [hshift 1 htarget]
    refine Prod.ext rfl ?_
    omega

/-- A significand with its weight, in the form of the core model. -/
def ofSignificand (negative : Bool) (m g : Nat) : UnpackedFloat :=
  if h : m = 0 then .zero (signOf negative)
  else .finite (signOf negative) m (g - 1074 : Int) (Nat.pos_of_ne_zero h)

/-- What is too great is packed as an infinity. -/
theorem pack_ofSignificand (h : Canonical m g) :
    pack .binary64 (ofSignificand negative m g) =
      pack .binary64 (unpacked negative (min (g * 2 ^ 52 + m) infinity)) := by
  have hinf := infinity_eq
  have hlt := h.lt
  rw [ofSignificand]
  split
  · next hzero =>
    obtain rfl : g = 0 := h.le.resolve_left (by omega)
    rw [hzero]
    rfl
  · next hne =>
    by_cases hfinite : g * 2 ^ 52 + m < infinity
    · rw [Nat.min_eq_left (Nat.le_of_lt hfinite),
        unpacked_canonical h (Nat.pos_of_ne_zero hne) hfinite]
    · have hbiased :
          ((g - 1074 : Int) + (Format.binary64.exponentBias : Int) + (52 : Nat)).toNat = g + 1 := by
        have hbias : (Format.binary64.exponentBias : Int) = 1023 := rfl
        omega
      rw [Nat.min_eq_right (Nat.le_of_not_lt hfinite), unpacked_infinity]
      simp only [pack, hbiased]
      exact if_pos (by omega)

/-- Rounding in the core model, where no bits are missing at the front of the quotient. -/
theorem exists_roundWithAccuracy (hden : 0 < den) {k : Nat}
    (htarget : Format.binary64.targetExponent (totalExponent (num / den) e) = e + k)
    (hexp : e + k = g - 1074) (hc : Canonical (num / (den * 2 ^ k)) g) :
    ∃ m' g', Canonical m' g' ∧ g' * 2 ^ 52 + m' = g * 2 ^ 52 + roundRatio num (den * 2 ^ k) ∧
      roundWithAccuracy .binary64 (signOf negative) (num / den) e (accuracyOfFraction (num % den) den) =
        ofSignificand negative m' g' := by
  have hlt := hc.lt
  have hround := @roundRatio_eq num _ (Nat.mul_pos hden (Nat.two_pow_pos k))
  have hle : roundRatio num (den * 2 ^ k) ≤ 2 ^ 53 := by
    split at hround <;> omega
  have hge : 2 ^ 52 ≤ roundRatio num (den * 2 ^ k) ∨ g = 0 := by
    rcases hc.le with hge | hzero
    · exact .inl (by omega)
    · exact .inr hzero
  obtain ⟨m', g', hc', hsum, hshift⟩ := exists_shiftToTargetExponent hle hge
  refine ⟨m', g', hc', hsum, ?_⟩
  have hmantissa := @roundedMantissa_extended num _ (Nat.mul_pos hden (Nat.two_pow_pos k))
  rw [roundWithAccuracy, shiftToTargetExponent_eq hden htarget]
  simp only [hexp, hmantissa, hshift]
  rfl

theorem canonical_shift {k : Nat}
    (htarget : Format.binary64.targetExponent (totalExponent (num / den) e) = e + k)
    (hexp : e + k = g - 1074) : Canonical (num / (den * 2 ^ k)) g := by
  rw [targetExponent_eq, totalExponent] at htarget
  rw [← Nat.div_div_eq_div_mul]
  exact canonical_div (by omega) fun hne => by omega

/-- **Rounding in the core model.** A quotient with enough bits at the front is rounded to the number
with the closest magnitude. -/
theorem ofModel_roundWithAccuracy {num' den' : Nat} (hden : 0 < den) (hden' : 0 < den')
    (hle : e ≤ Format.binary64.targetExponent (totalExponent (num / den) e))
    (hexp : e + 1074 = b - a) (hval : num' * den * 2 ^ a = num * den' * 2 ^ b) :
    Float.ofModel (.pack (roundWithAccuracy .binary64 (signOf negative) (num / den) e
        (accuracyOfFraction (num % den) den))) =
      ofMagnitude negative (nearest num' den') := by
  have hinf := infinity_eq
  obtain ⟨k, htarget⟩ := Int.le.dest hle
  obtain ⟨g, hg⟩ : ∃ g : Nat, e + k = g - 1074 := by
    rw [targetExponent_eq] at htarget
    exact ⟨(e + k + 1074).toNat, by omega⟩
  have hc := canonical_shift htarget.symm hg
  have hD : 0 < den * 2 ^ k := Nat.mul_pos hden (Nat.two_pow_pos _)
  have hD' : 0 < den' * 2 ^ g := Nat.mul_pos hden' (Nat.two_pow_pos _)
  have hratio : num' * (den * 2 ^ k) = num * (den' * 2 ^ g) := by
    have hsum : g + a = b + k := by omega
    refine Nat.eq_of_mul_eq_mul_right (Nat.two_pow_pos a) ?_
    calc
      num' * (den * 2 ^ k) * 2 ^ a = num' * den * 2 ^ a * 2 ^ k := by ring
      _ = num * den' * (2 ^ b * 2 ^ k) := by rw [hval, Nat.mul_assoc]
      _ = num * den' * (2 ^ g * 2 ^ a) := by rw [← Nat.pow_add, ← Nat.pow_add, hsum]
      _ = num * (den' * 2 ^ g) * 2 ^ a := by ring
  have hweight : weight num' den' = g := by
    refine weight_eq ?_
    rwa [div_eq_div_of_ratio hD' hD hratio]
  obtain ⟨m', g', hc', hsum, hround⟩ := exists_roundWithAccuracy hden htarget.symm hg hc
  have hpack : (pack .binary64 (ofSignificand negative m' g')) =
      pack .binary64 (unpacked negative (nearest num' den')) := by
    rw [pack_ofSignificand hc', hsum, nearest_eq hden', hweight, roundRatio_congr hD' hD hratio]
  have hnearest : nearest num' den' ≤ infinity := nearest_le
  rw [hround, ofMagnitude_eq (by omega)]
  exact ext_bits (UInt64.toBitVec_inj.mp hpack)

/-- Nothing is missing behind a natural number. -/
theorem ofModel_roundWithAccuracy_exact {num den : Nat} (hden : 0 < den)
    (hle : e ≤ Format.binary64.targetExponent (totalExponent m e)) (hexp : e + 1074 = b - a)
    (hval : num * 2 ^ a = m * den * 2 ^ b) :
    Float.ofModel (.pack (roundWithAccuracy .binary64 (signOf negative) m e .exact)) =
      ofMagnitude negative (nearest num den) := by
  rw [← Nat.div_one m] at hle
  have hround := @ofModel_roundWithAccuracy _ _ _ _ _ negative _ _ Nat.one_pos hden hle hexp
    ((Nat.mul_one num).symm ▸ hval)
  rwa [Nat.div_one, Nat.mod_one] at hround

theorem log2_mul_two_pow (hm : 0 < m) (k : Nat) : (m * 2 ^ k).log2 = m.log2 + k := by
  have hne : m ≠ 0 := Nat.ne_of_gt hm
  refine (Nat.log2_eq_iff (Nat.ne_of_gt (Nat.mul_pos hm (Nat.two_pow_pos k)))).mpr ⟨?_, ?_⟩
  · rw [Nat.pow_add]
    exact Nat.mul_le_mul_right _ (Nat.log2_self_le hne)
  · rw [Nat.add_right_comm, Nat.pow_add]
    exact Nat.mul_lt_mul_of_pos_right Nat.lt_log2_self (Nat.two_pow_pos k)

/-- A number with any exponent is rounded to the one with the closest magnitude. -/
theorem ofModel_round {num den : Nat} (hden : 0 < den) (hm : 0 < m) (hexp : e + 1074 = b - a)
    (hval : num * 2 ^ a = m * den * 2 ^ b) :
    Float.ofModel (.pack (UnpackedFloat.round .binary64 (signOf negative) m e)) =
      ofMagnitude negative (nearest num den) := by
  obtain ⟨k, hk⟩ : ∃ k : Nat, (e - Format.binary64.targetExponent (totalExponent m e)).toNat = k :=
    ⟨_, rfl⟩
  have hle : e - k ≤ Format.binary64.targetExponent (totalExponent (m * 2 ^ k) (e - k)) := by
    rw [targetExponent_eq, totalExponent] at hk
    rw [totalExponent, log2_mul_two_pow hm, targetExponent_eq]
    omega
  have hval' : num * 2 ^ (a + k) = m * 2 ^ k * den * 2 ^ b := by
    rw [Nat.pow_add, ← Nat.mul_assoc, hval]
    ring
  simp only [UnpackedFloat.round, decreaseExponent, hk, Nat.shiftLeft_eq]
  exact ofModel_roundWithAccuracy_exact hden hle (by omega) hval'

end packing

end CurvePlot.Binary64
