import CurvePlot.Proofs.Binary64.Rounding

/-! Arithmetic of numbers.

The operations of the core model give the number closest to the exact result: `mul_eq` and `div_eq`
state this of the magnitudes, with the sign apart, and `value_add` and `value_sub` of the values.
`product` and `quotient` are those of positive numbers, infinities among them, and are monotone. -/

namespace CurvePlot.Binary64

open Float.Model (Format UnpackedFloat totalExponent)
open Float.Model.UnpackedFloat

variable {x y : Float} {n m : Nat} {s t : Bool} {u v : UnpackedFloat}

theorem mul_signOf (s t : Bool) : signOf s * signOf t = signOf (s != t) := by
  cases s <;> cases t <;> rfl

theorem div_signOf (s t : Bool) : signOf s / signOf t = signOf (s != t) := by
  cases s <;> cases t <;> rfl

theorem one_pos : 0 < one := by decide

theorem nearest_zero {den : Nat} (h : 0 < den) : nearest 0 den = 0 := nearest_of_lt h

theorem ofModel_zero (s : Bool) : Float.ofModel (.pack (.zero (signOf s))) = ofMagnitude s 0 := by
  rw [ofMagnitude_eq (Nat.two_pow_pos 63), unpacked_zero]

theorem ofModel_infinity (s : Bool) :
    Float.ofModel (.pack (.infinity (signOf s))) = ofMagnitude s infinity := by
  have hinf := infinity_eq
  rw [ofMagnitude_eq (by omega), unpacked_infinity]

/-! ## Products -/

/-- The product of two significands is long enough to be rounded, or it has the least weight. -/
theorem le_targetExponent_mul {m g k e : Nat} (hc : Canonical m g) (hd : Canonical k e) (hm : 0 < m)
    (hk : 0 < k) :
    (g - 1074 : Int) + (e - 1074) ≤
      Format.binary64.targetExponent (totalExponent (m * k) ((g - 1074 : Int) + (e - 1074))) := by
  have hlog (h : 2 ^ 52 ≤ m * k) : 52 ≤ (m * k).log2 :=
    (Nat.le_log2 (Nat.ne_of_gt (Nat.mul_pos hm hk))).mpr h
  rw [targetExponent_eq, totalExponent]
  rcases hc.le with hm' | rfl
  · have hlog' := hlog (Nat.le_trans hm' (Nat.le_mul_of_pos_right m hk))
    omega
  · rcases hd.le with hk' | rfl
    · have hlog' := hlog (Nat.le_trans hk' (Nat.le_mul_of_pos_left k hm))
      omega
    · omega

theorem mul_of_shape (hu : Shape s n u) (hv : Shape t m v) (hn : n < infinity) (hm : m < infinity) :
    Float.ofModel (.pack (UnpackedFloat.mul .binary64 u v)) =
      ofMagnitude (s != t) (nearest (units n * units m) one) := by
  cases hu with
  | infinity => exact absurd hn (Nat.lt_irrefl _)
  | zero =>
    have hzero : UnpackedFloat.mul .binary64 (.zero (signOf s)) v = .zero (signOf (s != t)) := by
      rw [← mul_signOf]
      cases hv with
      | infinity => exact absurd hm (Nat.lt_irrefl _)
      | zero | finite => rfl
    rw [hzero, ofModel_zero, units_zero, Nat.zero_mul, nearest_zero one_pos]
  | @finite m g hc hp _ =>
    cases hv with
    | infinity => exact absurd hm (Nat.lt_irrefl _)
    | zero =>
      calc
        _ = Float.ofModel (.pack (.zero (signOf s * signOf t))) := rfl
        _ = _ := by rw [mul_signOf, ofModel_zero, units_zero, Nat.mul_zero, nearest_zero one_pos]
    | @finite k e hd hq _ =>
      have hval (c : Nat) : m * 2 ^ g * (k * 2 ^ e) * 2 ^ c = m * k * 2 ^ c * 2 ^ (g + e) := by ring
      rw [hc.units, hd.units, one_eq, ← ofModel_roundWithAccuracy_exact (Nat.two_pow_pos _)
        (le_targetExponent_mul hc hd hp hq) (by omega) (hval 1074), ← mul_signOf]
      rfl

theorem infinity_mul_of_shape (hv : Shape t m v) (hm : m < infinity) (h₀ : 0 < m) :
    UnpackedFloat.mul .binary64 (.infinity (signOf s)) v = .infinity (signOf (s != t)) := by
  rw [← mul_signOf]
  cases hv with
  | zero => exact absurd h₀ (Nat.lt_irrefl _)
  | finite => rfl
  | infinity => exact absurd hm (Nat.lt_irrefl _)

theorem mul_unpacked (x y : Float) :
    x * y = .ofModel (.pack (UnpackedFloat.mul .binary64
      (unpacked (isNegative x) (magnitude x)) (unpacked (isNegative y) (magnitude y)))) := by
  rw [← unpack_toModel, ← unpack_toModel]
  rfl

/-- **Products.** The magnitude of a product is the one closest to the product of the values. -/
theorem mul_eq (hx : magnitude x < infinity) (hy : magnitude y < infinity) :
    x * y = ofMagnitude (isNegative x != isNegative y)
      (nearest (units (magnitude x) * units (magnitude y)) one) := by
  rw [mul_unpacked]
  exact mul_of_shape (shape_unpacked (Nat.le_of_lt hx)) (shape_unpacked (Nat.le_of_lt hy)) hx hy

theorem infinity_mul (hx : magnitude x = infinity) (hy : magnitude y < infinity)
    (h₀ : 0 < magnitude y) : x * y = ofMagnitude (isNegative x != isNegative y) infinity := by
  rw [mul_unpacked, hx, unpacked_infinity,
    infinity_mul_of_shape (shape_unpacked (Nat.le_of_lt hy)) hy h₀, ofModel_infinity]

/-! ## Quotients -/

theorem log2_le_log2_div (n : Nat) {k : Nat} (hk : 0 < k) :
    n.log2 ≤ (n / k).log2 + k.log2 + 1 := by
  rcases Nat.eq_zero_or_pos n with rfl | hn
  · rw [Nat.log2_zero]
    exact Nat.zero_le _
  refine Nat.lt_succ_iff.mp ((Nat.log2_lt (Nat.ne_of_gt hn)).mpr ?_)
  calc
    n < k * (n / k + 1) := Nat.lt_mul_div_succ n hk
    _ ≤ 2 ^ (k.log2 + 1) * 2 ^ ((n / k).log2 + 1) :=
      Nat.mul_le_mul (Nat.le_of_lt Nat.lt_log2_self) Nat.lt_log2_self
    _ = 2 ^ ((n / k).log2 + k.log2 + 1 + 1) := by rw [← Nat.pow_add]; congr 1; omega

/-- The quotient of two significands is made long enough to be rounded. -/
theorem exists_divCore {m g k : Nat} (e : Nat) (hc : Canonical m g) (hm : 0 < m) (hk : 0 < k) :
    ∃ j : Nat, ∃ f : Int,
      divCore .binary64 m (g - 1074) k (e - 1074) =
        (m * 2 ^ j / k, f, accuracyOfFraction (m * 2 ^ j % k) k) ∧ f + j = g - e ∧
      f ≤ Format.binary64.targetExponent (totalExponent (m * 2 ^ j / k) f) := by
  obtain ⟨f, hf⟩ : ∃ f, f = min ((g - 1074 : Int) - (e - 1074)) (Format.binary64.targetExponent
      (totalExponent m (g - 1074) - totalExponent k (e - 1074))) := ⟨_, rfl⟩
  obtain ⟨j, hj⟩ : ∃ j : Nat, ((g - 1074 : Int) - (e - 1074) - f).toNat = j := ⟨_, rfl⟩
  have hexp : f + j = g - e := by omega
  refine ⟨j, f, ?_, hexp, ?_⟩
  · simp only [divCore, ← hf, hj, Nat.shiftLeft_eq]
  · have hlog := log2_le_log2_div (m * 2 ^ j) hk
    rw [log2_mul_two_pow hm] at hlog
    rw [targetExponent_eq, totalExponent, totalExponent] at hf
    rw [targetExponent_eq, totalExponent]
    have hmlog : m.log2 < 53 := (Nat.log2_lt (Nat.ne_of_gt hm)).mpr hc.lt
    omega

theorem div_of_shape (hu : Shape s n u) (hv : Shape t m v) (hn : n < infinity) (hm : m < infinity)
    (h₀ : 0 < m) :
    Float.ofModel (.pack (UnpackedFloat.div .binary64 u v)) =
      ofMagnitude (s != t) (nearest (units n * one) (units m)) := by
  cases hv with
  | zero => exact absurd h₀ (Nat.lt_irrefl _)
  | infinity => exact absurd hm (Nat.lt_irrefl _)
  | @finite k e hd hk _ =>
    have hpos : 0 < k * 2 ^ e := Nat.mul_pos hk (Nat.two_pow_pos _)
    cases hu with
    | infinity => exact absurd hn (Nat.lt_irrefl _)
    | zero =>
      calc
        _ = Float.ofModel (.pack (.zero (signOf s / signOf t))) := rfl
        _ = _ := by
          rw [div_signOf, ofModel_zero, units_zero, Nat.zero_mul, hd.units, nearest_zero hpos]
    | @finite m g hc hp _ =>
      obtain ⟨j, f, hcore, hexp, hle⟩ := exists_divCore e hc hp hk
      have hval (c : Nat) : m * 2 ^ g * 2 ^ c * k * 2 ^ (e + j) =
          m * 2 ^ j * (k * 2 ^ e) * 2 ^ (g + c) := by ring
      rw [hc.units, hd.units, one_eq, ← ofModel_roundWithAccuracy hk hpos hle (by omega) (hval 1074),
        ← div_signOf]
      simp only [UnpackedFloat.div, hcore]

theorem infinity_div_of_shape (hv : Shape t m v) (hm : m < infinity) :
    UnpackedFloat.div .binary64 (.infinity (signOf s)) v = .infinity (signOf (s != t)) := by
  rw [← div_signOf]
  cases hv with
  | zero | finite => rfl
  | infinity => exact absurd hm (Nat.lt_irrefl _)

theorem div_unpacked (x y : Float) :
    x / y = .ofModel (.pack (UnpackedFloat.div .binary64
      (unpacked (isNegative x) (magnitude x)) (unpacked (isNegative y) (magnitude y)))) := by
  rw [← unpack_toModel, ← unpack_toModel]
  rfl

/-- **Quotients.** The magnitude of a quotient is the one closest to the quotient of the values. -/
theorem div_eq (hx : magnitude x < infinity) (hy : magnitude y < infinity) (h₀ : 0 < magnitude y) :
    x / y = ofMagnitude (isNegative x != isNegative y)
      (nearest (units (magnitude x) * one) (units (magnitude y))) := by
  rw [div_unpacked]
  exact div_of_shape (shape_unpacked (Nat.le_of_lt hx)) (shape_unpacked (Nat.le_of_lt hy)) hx hy h₀

theorem infinity_div (hx : magnitude x = infinity) (hy : magnitude y < infinity) :
    x / y = ofMagnitude (isNegative x != isNegative y) infinity := by
  rw [div_unpacked, hx, unpacked_infinity,
    infinity_div_of_shape (shape_unpacked (Nat.le_of_lt hy)) hy, ofModel_infinity]

/-! ## Sums and differences -/

/-- The value of the number closest to a multiple of the smallest positive one. -/
def rounded (z : Int) : Int := signed (decide (z < 0)) (units (nearest z.natAbs 1))

theorem value_ofMagnitude (h : n ≤ infinity) : value (ofMagnitude s n) = signed s (units n) := by
  rw [value, isNegative_ofMagnitude h, magnitude_ofMagnitude h]

theorem natAbs_signed (s : Bool) (n : Nat) : (signed s n).natAbs = n := by
  cases s <;> simp [signed]

theorem signed_nonneg (n : Nat) : 0 ≤ signed false n := Int.natCast_nonneg n

theorem rounded_of_nonneg {z : Int} (h : 0 ≤ z) : rounded z = units (nearest z.natAbs 1) := by
  rw [rounded, decide_eq_false (Int.not_lt.mpr h)]
  rfl

theorem rounded_of_neg {z : Int} (h : z < 0) : rounded z = -units (nearest z.natAbs 1) := by
  rw [rounded, decide_eq_true h]
  rfl

/-- A value is kept. -/
theorem rounded_signed (h : n ≤ infinity) : rounded (signed s (units n)) = signed s (units n) := by
  have hnearest : nearest (units n) 1 = n := by
    have hnearest := nearest_units Nat.one_pos h
    rwa [Nat.mul_one] at hnearest
  cases s with
  | false => rw [rounded_of_nonneg (signed_nonneg _), natAbs_signed, hnearest]; rfl
  | true =>
    rcases Nat.eq_zero_or_pos (units n) with hzero | hpos
    · rw [hzero]
      rfl
    · have hneg : signed true (units n) < 0 := Int.neg_neg_of_pos (Int.natCast_pos.mpr hpos)
      rw [rounded_of_neg hneg, natAbs_signed, hnearest]
      rfl

theorem rounded_mono {y z : Int} (h : y ≤ z) : rounded y ≤ rounded z := by
  have hmono {a b : Nat} (hab : a ≤ b) : (units (nearest a 1) : Int) ≤ units (nearest b 1) := by
    refine Int.ofNat_le.mpr (units_strictMono.monotone (nearest_mono Nat.one_pos Nat.one_pos ?_))
    exact Nat.mul_le_mul_right 1 hab
  by_cases hy : y < 0
  · rw [rounded_of_neg hy]
    by_cases hz : z < 0
    · rw [rounded_of_neg hz]
      exact Int.neg_le_neg (hmono (by omega))
    · rw [rounded_of_nonneg (by omega)]
      omega
  · rw [rounded_of_nonneg (by omega), rounded_of_nonneg (by omega)]
    exact hmono (by omega)

theorem value_normalize (z : Int) (g : Nat) :
    value (.ofModel (.pack (UnpackedFloat.normalize .binary64 z (g - 1074) .positive))) =
      rounded (z * 2 ^ g) := by
  have hexp : (g - 1074 : Int) + 1074 = g - (0 : Nat) := by omega
  have hval : z.natAbs * 2 ^ g * 2 ^ 0 = z.natAbs * 1 * 2 ^ g := by ring
  have hround (s : Bool) (h : z ≠ 0) :
      value (.ofModel (.pack (UnpackedFloat.round .binary64 (signOf s) z.natAbs (g - 1074)))) =
        signed s (units (nearest (z * 2 ^ g).natAbs 1)) := by
    rw [ofModel_round Nat.one_pos (Int.natAbs_pos.mpr h) hexp hval, value_ofMagnitude nearest_le,
      Int.natAbs_mul, Int.natAbs_pow]
    rfl
  have hpow : (0 : Int) < 2 ^ g := by positivity
  rw [UnpackedFloat.normalize]
  rcases Int.lt_trichotomy z 0 with h | rfl | h
  · have habs : (-z).toNat = z.natAbs := by omega
    simp only [Int.compare_eq_lt.mpr h, habs]
    rw [rounded_of_neg (Int.mul_neg_of_neg_of_pos h hpow)]
    exact hround true (Int.ne_of_lt h)
  · rw [Int.zero_mul]
    calc
      value (.ofModel (.pack (.zero (signOf false)))) = value (ofMagnitude false 0) := by
        rw [ofModel_zero]
      _ = rounded 0 := value_ofMagnitude (Nat.zero_le _)
  · have habs : z.toNat = z.natAbs := by omega
    simp only [Int.compare_eq_gt.mpr h, habs]
    rw [rounded_of_nonneg (Int.le_of_lt (Int.mul_pos h hpow))]
    exact hround false (Int.ne_of_gt h)

theorem apply_signOf (s : Bool) (n : Nat) : (signOf s).apply n = signed s n := by
  cases s <;> rfl

theorem signed_mul (s : Bool) (n m : Nat) : signed s (n * m) = signed s n * m := by
  cases s <;> simp [signed]

theorem decreaseExponent_eq (m g l : Nat) :
    (decreaseExponent m (g - 1074) (l - 1074)).1 = m * 2 ^ (g - l) := by
  have hshift : ((g - 1074 : Int) - (l - 1074)).toNat = g - l := by omega
  simp only [decreaseExponent, hshift, Nat.shiftLeft_eq]

theorem value_of_shape (hu : Shape s n u) (hn : n < infinity) :
    value (.ofModel (.pack u)) = rounded (signed s (units n)) := by
  have hinf := infinity_eq
  rw [hu.eq_unpacked, ← ofMagnitude_eq (by omega), value_ofMagnitude (Nat.le_of_lt hn),
    rounded_signed (Nat.le_of_lt hn)]

theorem value_add_of_shape (hu : Shape s n u) (hv : Shape t m v) (hn : n < infinity)
    (hm : m < infinity) :
    value (.ofModel (.pack (UnpackedFloat.add .binary64 u v))) =
      rounded (signed s (units n) + signed t (units m)) := by
  have hzero (s : Bool) : signed s 0 = 0 := by cases s <;> rfl
  cases hu with
  | infinity => exact absurd hn (Nat.lt_irrefl _)
  | zero =>
    rw [units_zero, hzero, Int.zero_add]
    cases hv with
    | infinity => exact absurd hm (Nat.lt_irrefl _)
    | zero =>
      have hadd : UnpackedFloat.add .binary64 (.zero (signOf s)) (.zero (signOf t)) =
          .zero (signOf (s && t)) := by cases s <;> cases t <;> rfl
      rw [hadd, units_zero, hzero, ofModel_zero, value_ofMagnitude (Nat.zero_le _), units_zero, hzero]
      rfl
    | finite hd hq hlt => exact value_of_shape (.finite hd hq hlt) hm
  | @finite m g hc hp hlt =>
    cases hv with
    | infinity => exact absurd hm (Nat.lt_irrefl _)
    | zero =>
      rw [units_zero, hzero, Int.add_zero]
      exact value_of_shape (.finite hc hp hlt) hn
    | @finite k e hd hq _ =>
      have hmin : min (g - 1074 : Int) (e - 1074) = (min g e : Nat) - 1074 := by omega
      have hpow {a b c : Nat} (h : c ≤ a) : b * 2 ^ a = b * 2 ^ (a - c) * 2 ^ c := by
        rw [Nat.mul_assoc, ← Nat.pow_add, Nat.sub_add_cancel h]
      have hsum : (signed s (m * 2 ^ (g - min g e)) + signed t (k * 2 ^ (e - min g e))) * 2 ^ min g e =
          signed s (m * 2 ^ g) + signed t (k * 2 ^ e) := by
        rw [hpow (Nat.min_le_left g e), hpow (Nat.min_le_right g e), signed_mul s _ (2 ^ min g e),
          signed_mul t _ (2 ^ min g e), Int.add_mul]
        push_cast
        rfl
      have hadd : UnpackedFloat.add .binary64 (.finite (signOf s) m (g - 1074) hp)
          (.finite (signOf t) k (e - 1074) hq) =
          UnpackedFloat.normalize .binary64
            (signed s (m * 2 ^ (g - min g e)) + signed t (k * 2 ^ (e - min g e)))
            ((min g e : Nat) - 1074) .positive := by
        simp only [UnpackedFloat.add, hmin, decreaseExponent_eq, apply_signOf]
      rw [hadd, value_normalize, hsum, hc.units, hd.units]

theorem sub_eq_add_neg (u v : UnpackedFloat) :
    UnpackedFloat.sub .binary64 u v = UnpackedFloat.add .binary64 u v.neg := by
  cases u <;> cases v
  case finite.finite s m e hm t k f hk =>
    have hneg (n : Int) : (-t).apply n = -t.apply n := by
      cases t
      · exact (Int.neg_neg n).symm
      · rfl
    simp only [UnpackedFloat.sub, UnpackedFloat.add, UnpackedFloat.neg, hneg, Int.sub_eq_add_neg]
  all_goals rfl

theorem add_unpacked (x y : Float) :
    x + y = .ofModel (.pack (UnpackedFloat.add .binary64
      (unpacked (isNegative x) (magnitude x)) (unpacked (isNegative y) (magnitude y)))) := by
  rw [← unpack_toModel, ← unpack_toModel]
  rfl

/-- **Sums.** The value of a sum is the one closest to the sum of the values. -/
theorem value_add (hx : magnitude x < infinity) (hy : magnitude y < infinity) :
    value (x + y) = rounded (value x + value y) := by
  rw [add_unpacked]
  exact value_add_of_shape (shape_unpacked (Nat.le_of_lt hx)) (shape_unpacked (Nat.le_of_lt hy)) hx hy

/-- **Differences.** The value of a difference is the one closest to the difference of the values. -/
theorem value_sub (hx : magnitude x < infinity) (hy : magnitude y < infinity) :
    value (x - y) = rounded (value x - value y) := by
  have hsub : x - y = .ofModel (.pack (UnpackedFloat.add .binary64
      (unpacked (isNegative x) (magnitude x)) (unpacked (!isNegative y) (magnitude y)))) := by
    rw [← neg_unpacked, ← sub_eq_add_neg, ← unpack_toModel, ← unpack_toModel]
    rfl
  have hneg : signed (!isNegative y) (units (magnitude y)) = -value y := by
    rw [value]
    cases isNegative y <;> simp [signed]
  rw [hsub, value_add_of_shape (shape_unpacked (Nat.le_of_lt hx)) (shape_unpacked (Nat.le_of_lt hy))
    hx hy, hneg]
  rfl

theorem natAbs_value (x : Float) : (value x).natAbs = units (magnitude x) := natAbs_signed ..

theorem natAbs_rounded (z : Int) : (rounded z).natAbs = units (nearest z.natAbs 1) := natAbs_signed ..

theorem rounded_value (hx : magnitude x ≤ infinity) : rounded (value x) = value x := rounded_signed hx

theorem magnitude_add (hx : magnitude x < infinity) (hy : magnitude y < infinity) :
    magnitude (x + y) = nearest (value x + value y).natAbs 1 := by
  refine units_strictMono.injective ?_
  rw [← natAbs_value, value_add hx hy, natAbs_rounded]

theorem add_infinity (hx : magnitude x < infinity) (hy : magnitude y = infinity) :
    x + y = ofMagnitude (isNegative y) infinity := by
  have hfinite {u : UnpackedFloat} (hu : Shape (isNegative x) (magnitude x) u) :
      UnpackedFloat.add .binary64 u (.infinity (signOf (isNegative y))) =
        .infinity (signOf (isNegative y)) := by
    generalize magnitude x = n at *
    cases hu with
    | zero | finite => rfl
    | infinity => exact absurd hx (Nat.lt_irrefl _)
  rw [add_unpacked, hy, unpacked_infinity, hfinite (shape_unpacked (Nat.le_of_lt hx)), ofModel_infinity]

/-! ## Natural numbers -/

theorem nearest_significand {g : Nat} (hm : m ≤ 2 ^ 53) (hg : 2 ^ 52 ≤ m ∨ g = 0)
    (hle : g * 2 ^ 52 + m ≤ infinity) : nearest (m * 2 ^ g) 1 = g * 2 ^ 52 + m := by
  rw [← units_eq hm hg, ← Nat.mul_one (units _), nearest_units Nat.one_pos hle]

theorem ofNat_eq (n : Nat) : ofNat n = ofMagnitude false (nearest (n * one) 1) := rfl

/-- Natural numbers of at most 53 bits are exact. -/
theorem units_nearest_mul_one (h : n ≤ 2 ^ 53) : units (nearest (n * one) 1) = n * one := by
  have hinf := infinity_eq
  rcases Nat.eq_zero_or_pos n with rfl | hpos
  · rw [Nat.zero_mul, nearest_zero Nat.one_pos, units_zero]
  have hne : n ≠ 0 := Nat.ne_of_gt hpos
  have hlog : n.log2 < 54 := (Nat.log2_lt hne).mpr (by omega)
  have hsplit : n * one = n * 2 ^ (52 - n.log2) * 2 ^ (1074 - (52 - n.log2)) := by
    rw [one_eq, Nat.mul_assoc, ← Nat.pow_add, Nat.add_sub_cancel' (by omega)]
  have hm : n * 2 ^ (52 - n.log2) ≤ 2 ^ 53 := by
    by_cases hlog' : n.log2 ≤ 52
    · calc
        n * 2 ^ (52 - n.log2) ≤ 2 ^ (n.log2 + 1) * 2 ^ (52 - n.log2) :=
          Nat.mul_le_mul_right _ (Nat.le_of_lt Nat.lt_log2_self)
        _ = 2 ^ 53 := by rw [← Nat.pow_add]; congr 1; omega
    · rw [Nat.sub_eq_zero_of_le (by omega), Nat.pow_zero, Nat.mul_one]
      exact h
  have hm' : 2 ^ 52 ≤ n * 2 ^ (52 - n.log2) := by
    calc
      2 ^ 52 ≤ 2 ^ (n.log2 + (52 - n.log2)) := Nat.pow_le_pow_right (by omega) (by omega)
      _ = 2 ^ n.log2 * 2 ^ (52 - n.log2) := Nat.pow_add ..
      _ ≤ n * 2 ^ (52 - n.log2) := Nat.mul_le_mul_right _ (Nat.log2_self_le hne)
  rw [hsplit, nearest_significand hm (.inl hm') (by omega), units_eq hm (.inl hm')]

theorem nearest_mul_one_mono (h : m ≤ n) : nearest (m * one) 1 ≤ nearest (n * one) 1 :=
  nearest_mono Nat.one_pos Nat.one_pos (Nat.mul_le_mul_right 1 (Nat.mul_le_mul_right one h))

theorem nearest_mul_one_lt (h : n ≤ 2 ^ 64) : nearest (n * one) 1 < infinity := by
  have hinf := infinity_eq
  have hsplit (c : Nat) : 2 ^ 64 * 2 ^ c = 2 ^ 52 * 2 ^ (c + 12) := by ring
  have hlast : nearest (2 ^ 64 * one) 1 = (1074 + 12) * 2 ^ 52 + 2 ^ 52 := by
    rw [one_eq, hsplit, nearest_significand (by omega) (.inl (Nat.le_refl _)) (by omega)]
  have hle := nearest_mul_one_mono h
  omega

theorem nearest_mul_one_pos (h : 0 < n) : 0 < nearest (n * one) 1 := by
  refine Nat.lt_of_lt_of_le (Nat.pos_of_ne_zero ?_) (nearest_mul_one_mono h)
  intro hzero
  have hone := @units_nearest_mul_one 1 (by omega)
  rw [hzero, units_zero, Nat.one_mul] at hone
  exact Nat.ne_of_lt one_pos hone

/-! ## Positive numbers -/

/-- The magnitude of a product of positive numbers. -/
def product (n m : Nat) : Nat :=
  if n = infinity then infinity else nearest (units n * units m) one

/-- The magnitude of a quotient of positive numbers. -/
def quotient (n m : Nat) : Nat :=
  if n = infinity then infinity else nearest (units n * one) (units m)

theorem product_le : product n m ≤ infinity := by
  rw [product]
  split
  · exact Nat.le_refl _
  · exact nearest_le

theorem quotient_le : quotient n m ≤ infinity := by
  rw [quotient]
  split
  · exact Nat.le_refl _
  · exact nearest_le

theorem product_mono {m' : Nat} (h : m ≤ m') : product n m ≤ product n m' := by
  rw [product, product]
  split
  · exact Nat.le_refl _
  · refine nearest_mono one_pos one_pos (Nat.mul_le_mul_right one (Nat.mul_le_mul_left _ ?_))
    exact units_strictMono.monotone h

theorem quotient_mono {n' : Nat} (hm : 0 < m) (h : n ≤ n') (hn' : n' ≤ infinity) :
    quotient n m ≤ quotient n' m := by
  have hunits : 0 < units m := units_strictMono hm
  by_cases hinf : n' = infinity
  · rw [quotient.eq_def n', if_pos hinf]
    exact quotient_le
  · rw [quotient, quotient, if_neg (by omega), if_neg hinf]
    refine nearest_mono hunits hunits (Nat.mul_le_mul_right _ (Nat.mul_le_mul_right _ ?_))
    exact units_strictMono.monotone h

theorem mul_eq_product (hx : magnitude x ≤ infinity) (h₀ : 0 < magnitude y)
    (hy : magnitude y < infinity) :
    x * y = ofMagnitude (isNegative x != isNegative y) (product (magnitude x) (magnitude y)) := by
  rw [product]
  split
  · next hinf => exact infinity_mul hinf hy h₀
  · exact mul_eq (by omega) hy

theorem div_eq_quotient (hx : magnitude x ≤ infinity) (h₀ : 0 < magnitude y)
    (hy : magnitude y < infinity) :
    x / y = ofMagnitude (isNegative x != isNegative y) (quotient (magnitude x) (magnitude y)) := by
  rw [quotient]
  split
  · next hinf => exact infinity_div hinf hy
  · exact div_eq (by omega) hy h₀

theorem ofMagnitude_mul (hn : n ≤ infinity) (h₀ : 0 < m) (hm : m < infinity) :
    ofMagnitude s n * ofMagnitude t m = ofMagnitude (s != t) (product n m) := by
  have hmul := @mul_eq_product (ofMagnitude s n) (ofMagnitude t m)
  rw [magnitude_ofMagnitude hn, magnitude_ofMagnitude (Nat.le_of_lt hm), isNegative_ofMagnitude hn,
    isNegative_ofMagnitude (Nat.le_of_lt hm)] at hmul
  exact hmul hn h₀ hm

theorem ofMagnitude_div (hn : n ≤ infinity) (h₀ : 0 < m) (hm : m < infinity) :
    ofMagnitude s n / ofMagnitude t m = ofMagnitude (s != t) (quotient n m) := by
  have hdiv := @div_eq_quotient (ofMagnitude s n) (ofMagnitude t m)
  rw [magnitude_ofMagnitude hn, magnitude_ofMagnitude (Nat.le_of_lt hm), isNegative_ofMagnitude hn,
    isNegative_ofMagnitude (Nat.le_of_lt hm)] at hdiv
  exact hdiv hn h₀ hm

/-- What has a positive value has no sign. -/
theorem eq_ofMagnitude_of_value (hn : n ≤ infinity) (h₀ : 0 < n) (h : value x = units n) :
    x = ofMagnitude false n := by
  have hpos : 0 < units n := units_strictMono h₀
  rw [value] at h
  cases hs : isNegative x with
  | true =>
    rw [hs, signed, if_pos rfl] at h
    omega
  | false =>
    have hmag : magnitude x = n := units_strictMono.injective (Int.ofNat_inj.mp (by rwa [hs] at h))
    have hx := ofMagnitude_magnitude (hmag ▸ hn : magnitude x ≤ infinity)
    rwa [hs, hmag, eq_comm] at hx

end CurvePlot.Binary64
