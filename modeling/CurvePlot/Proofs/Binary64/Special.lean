import CurvePlot.Proofs.Binary64.Arithmetic

/-! Arithmetic with special operands.

What comes out of a division by an infinity and of operations on what is no number, the difference of two
numbers that are equal or in order, the quotient of a number by itself, and products with `1`. -/

namespace CurvePlot.Binary64

open Float.Model (UnpackedFloat)

variable {x y : Float} {n : Nat} {s : Bool}

/-! ## Infinities -/

theorem div_infinity (hx : magnitude x < infinity) (hy : magnitude y = infinity) :
    x / y = ofMagnitude (isNegative x != isNegative y) 0 := by
  have hzero {u : UnpackedFloat} (hu : Shape (isNegative x) (magnitude x) u) :
      UnpackedFloat.div .binary64 u (.infinity (signOf (isNegative y))) =
        .zero (signOf (isNegative x != isNegative y)) := by
    rw [← div_signOf]
    generalize magnitude x = n at *
    cases hu with
    | zero | finite => rfl
    | infinity => exact absurd hx (Nat.lt_irrefl _)
  rw [div_unpacked, hy, unpacked_infinity, hzero (shape_unpacked (Nat.le_of_lt hx)), ofModel_zero]

theorem infinity_lt_magnitude_nan : infinity < magnitude (.ofModel (.pack .notANumber)) := by
  decide +kernel

theorem infinity_div_infinity (hx : magnitude x = infinity) (hy : magnitude y = infinity) :
    infinity < magnitude (x / y) := by
  rw [div_unpacked, hx, hy]
  exact infinity_lt_magnitude_nan

theorem nan_mul (hx : infinity < magnitude x) : infinity < magnitude (x * y) := by
  rw [mul_unpacked, unpacked_nan hx]
  exact infinity_lt_magnitude_nan

theorem not_lt_nan (hy : infinity < magnitude y) : ¬ x < y := by
  have hlt : x < y ↔ x.toModel.unpack.lt y.toModel.unpack = true := decide_eq_true_iff
  rw [hlt, unpack_toModel y, unpacked_nan hy]
  cases x.toModel.unpack <;> exact Bool.false_ne_true

theorem nan_not_lt (hx : infinity < magnitude x) : ¬ x < y := by
  have hlt : x < y ↔ x.toModel.unpack.lt y.toModel.unpack = true := decide_eq_true_iff
  rw [hlt, unpack_toModel x, unpacked_nan hx]
  exact Bool.false_ne_true

theorem nan_not_le (hx : infinity < magnitude x) : ¬ x ≤ y := by
  have hle : x ≤ y ↔ x.toModel.unpack.le y.toModel.unpack = true := decide_eq_true_iff
  rw [hle, unpack_toModel x, unpacked_nan hx]
  exact Bool.false_ne_true

/-! ## Comparing -/

theorem lt_iff_signed (hx : magnitude x ≤ infinity) (hy : magnitude y ≤ infinity) :
    x < y ↔ signed (isNegative x) (magnitude x) < signed (isNegative y) (magnitude y) := by
  rw [lt_iff hx hy, value, value, signed_units_lt]

theorem le_iff_signed (hx : magnitude x ≤ infinity) (hy : magnitude y ≤ infinity) :
    x ≤ y ↔ signed (isNegative x) (magnitude x) ≤ signed (isNegative y) (magnitude y) := by
  rw [le_iff hx hy, ← Int.not_lt, ← Int.not_lt, value, value, signed_units_lt]

theorem beq_eq (hx : magnitude x ≤ infinity) (hy : magnitude y ≤ infinity) :
    (x == y) = decide (value x = value y) := by
  have hbeq : (x == y) = x.toModel.unpack.beq y.toModel.unpack := rfl
  rw [hbeq, UnpackedFloat.beq, compare_unpack hx hy]
  by_cases h : value x = value y
  · rw [h]
    simp
  · simp [h]

/-! ## Zeros -/

theorem magnitude_eq_zero_iff : magnitude x = 0 ↔ value x = 0 := by
  rw [← Int.natAbs_eq_zero, natAbs_value]
  constructor
  · intro h
    rw [h, units_zero]
  · intro h
    rw [← units_zero] at h
    exact units_strictMono.injective h

theorem not_pos_of_magnitude_eq_zero (h : magnitude x = 0) : ¬ 0 < x := by
  have hzero : magnitude 0 = 0 := rfl
  rw [lt_iff (hzero ▸ Nat.zero_le _) (h ▸ Nat.zero_le _), magnitude_eq_zero_iff.mp h,
    magnitude_eq_zero_iff.mp hzero]
  exact Int.lt_irrefl 0

theorem magnitude_zero_div (hx : magnitude x = 0) (h₀ : 0 < magnitude y)
    (hy : magnitude y ≤ infinity) : magnitude (x / y) = 0 := by
  have hlt : magnitude x < infinity := by
    rw [hx]
    decide
  rcases Nat.lt_or_eq_of_le hy with hy | hy
  · rw [div_eq hlt hy h₀, hx, units_zero, Nat.zero_mul, nearest_zero (units_strictMono h₀),
      magnitude_ofMagnitude (Nat.zero_le _)]
  · rw [div_infinity hlt hy, magnitude_ofMagnitude (Nat.zero_le _)]

theorem magnitude_zero_mul (hx : magnitude x = 0) (hy : magnitude y < infinity) :
    magnitude (x * y) = 0 := by
  have hlt : magnitude x < infinity := by
    rw [hx]
    decide
  rw [mul_eq hlt hy, hx, units_zero, Nat.zero_mul, nearest_zero one_pos,
    magnitude_ofMagnitude (Nat.zero_le _)]

/-! ## Differences -/

theorem nearest_pos (h : 0 < n) : 0 < nearest n 1 := by
  have hone : nearest (1 * 2 ^ 0) 1 = 0 * 2 ^ 52 + 1 :=
    nearest_significand (by omega) (.inr rfl) (by decide)
  have hmono : nearest (1 * 2 ^ 0) 1 ≤ nearest n 1 :=
    nearest_mono Nat.one_pos Nat.one_pos (by omega)
  omega

/-- The distance between two numbers does not vanish. -/
theorem sub_of_lt (hx : magnitude x < infinity) (hy : magnitude y < infinity)
    (h : value y < value x) :
    x - y = ofMagnitude false (nearest (value x - value y).natAbs 1) ∧
      0 < nearest (value x - value y).natAbs 1 := by
  have hpos : 0 < nearest (value x - value y).natAbs 1 := nearest_pos (by omega)
  refine ⟨eq_ofMagnitude_of_value nearest_le hpos ?_, hpos⟩
  rw [value_sub hx hy, rounded_of_nonneg (by omega)]

theorem magnitude_sub_of_eq (hx : magnitude x < infinity) (hy : magnitude y < infinity)
    (h : value x = value y) : magnitude (x - y) = 0 := by
  rw [magnitude_eq_zero_iff, value_sub hx hy, h, Int.sub_self]
  rfl

/-! ## One -/

theorem units_nearest_one : units (nearest (1 * one) 1) = one := by
  rw [units_nearest_mul_one (by omega), Nat.one_mul]

theorem div_self_ofMagnitude (h₀ : 0 < n) (hn : n < infinity) :
    ofMagnitude s n / ofMagnitude s n = ofNat 1 := by
  have hquotient : quotient n n = nearest (1 * one) 1 := by
    rw [quotient, if_neg (Nat.ne_of_lt hn), Nat.mul_comm, ← units_nearest_one,
      nearest_units (units_strictMono h₀) nearest_le, units_nearest_one]
  rw [ofMagnitude_div (Nat.le_of_lt hn) h₀ hn, hquotient, bne_self_eq_false]
  rfl

theorem one_mul_ofNat (h₀ : 0 < n) (hn : n ≤ 2 ^ 64) : ofNat 1 * ofNat n = ofNat n := by
  have hproduct : product (nearest (1 * one) 1) (nearest (n * one) 1) = nearest (n * one) 1 := by
    rw [product, if_neg (Nat.ne_of_lt (nearest_mul_one_lt (by omega))), units_nearest_one,
      Nat.mul_comm, nearest_units one_pos nearest_le]
  rw [ofNat_eq, ofNat_eq, ofMagnitude_mul nearest_le (nearest_mul_one_pos h₀) (nearest_mul_one_lt hn),
    hproduct]
  rfl

theorem magnitude_ofNat_lt (h : n ≤ 2 ^ 64) : magnitude (ofNat n) < infinity := by
  rw [ofNat_eq, magnitude_ofMagnitude nearest_le]
  exact nearest_mul_one_lt h

theorem ofNat_pos (h₀ : 0 < n) : 0 < ofNat n := by
  have hzero : magnitude 0 = 0 := rfl
  have hpos : 0 < units (nearest (n * one) 1) := units_strictMono (nearest_mul_one_pos h₀)
  rw [lt_iff (hzero ▸ Nat.zero_le _) (magnitude_ofMagnitude nearest_le ▸ nearest_le),
    magnitude_eq_zero_iff.mp hzero, ofNat_eq, value_ofMagnitude nearest_le]
  exact Int.natCast_pos.mpr hpos

/-- Rounding gives a natural number of at most 53 bits back. -/
theorem roundToNat_ofNat (h : n ≤ 2 ^ 53) : roundToNat (ofNat n) = n := by
  rw [roundToNat, ofNat_eq, magnitude_ofMagnitude nearest_le, units_nearest_mul_one h]
  have hone := one_pos
  have hmul : n * (2 * one) = 2 * (n * one) := Nat.mul_left_comm ..
  rw [Nat.div_eq_iff (by omega), hmul]
  omega

end CurvePlot.Binary64
